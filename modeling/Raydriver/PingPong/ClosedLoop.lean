import Raydriver.Emulator.Smoothie
import Raydriver.Lib.Refinement
import Raydriver.PingPong.Matching
import Raydriver.PingPong.Order

/-!
# A Smoothieware session and its emulator, the loop closed

`SmoothieCore` writes to a transport behind which `SmoothieEmulator` runs.  The emulator is one
of the devices of `World`: it takes the lines one at a time, not because its queue is short, but
because the session does not write the next command before the last one is acknowledged.  So
what holds of all devices holds here, and beyond that the machine is where the commands say.

## Main definitions

* `Loop`, `Loop.step` — the session, the emulator, and the bytes between them.
* `Tidy` — the runs that are considered.
* `Linked` — the emulator is the device of a `World`.

## Main results

* `matches_world` — **the closed loop refines the session with an abstract device.**
* `machine_obeys_commands` — the answers, and the place of the machine.
-/

namespace Raydriver.PingPong

open Lts
open Emulator (Smoothie Head Motion Vec PyFloat PyPower PyPrints isPlain strip)
open Emulator.Smoothie (carryOut infos printed)

/-! ### The system -/

/-- A session with the emulator behind its transport. -/
structure Loop (F : Type) where
  sys : Sys
  device : Smoothie F
  /-- How many of the writes the emulator has taken. -/
  taken : ℕ := 0
  /-- How many of its bytes have been delivered. -/
  delivered : ℕ := 0

/-- What happens in the closed loop. -/
inductive LoopLabel (F : Type) where
  /-- A step of the session other than the receipt of bytes. -/
  | host (l : Label)
  /-- The emulator takes what was written since the last time. -/
  | feed
  /-- A tick of the emulator. -/
  | tick (now : F)
  /-- The transport delivers the next `n` bytes. -/
  | deliver (n : ℕ)

/-- A write as the session is meant to make it: a command on one line, or a byte that takes
effect at once. -/
def Sent.isTidy (e : Sent) : Bool :=
  match e.origin with
  | .command _ _ =>
    e.payload.getLast? == some '\n' && isPlain e.payload.dropLast && !(strip e.payload).isEmpty
  | .realtime => [['?'], ['!'], ['~']].contains e.payload
  | _ => false

/-- The lines of writes, as the emulator reads them. -/
def linesOf (sent : List Sent) : List Text :=
  (sent.filter Sent.isLine).map fun e => strip e.payload

namespace Loop

variable {F : Type} [PyFloat F]

/-- The bytes that have not been delivered. -/
def pipe (x : Loop F) : Bytes := x.device.txLog.drop x.delivered

/-- The emulator takes one write. -/
def feedOne (x : Loop F) (e : Sent) : Loop F :=
  { x with device := x.device.feedBytes (toUtf8 e.payload), taken := x.taken + 1 }

/-- One step of the driver, of the emulator, or of the wire between them. -/
def step [PyPower F] : LoopLabel F → Loop F → Option (Loop F)
  | .host (.rx _), _ => none
  | .host l, x => (Sys.step .smoothie l x.sys).map fun s => { x with sys := s }
  | .feed, x => some ((x.sys.core.sent.drop x.taken).foldl feedOne x)
  | .tick now, x => (x.device.tick now).map fun d => { x with device := d }
  | .deliver n, x => (Sys.step .smoothie (.rx (x.pipe.take n)) x.sys).map fun s =>
    { x with sys := s, delivered := x.delivered + (x.pipe.take n).length }

end Loop

/-- No wait expires, no command is cancelled, and the link stays up. -/
def LoopLabel.orderly {F : Type} : LoopLabel F → Bool
  | .host l => (WorldLabel.host l : WorldLabel .smoothie).orderly
  | _ => true

/-- The same, and every write is tidy. -/
def Tidy {F : Type} (_ : Loop F) (l : LoopLabel F) (x' : Loop F) : Bool :=
  l.orderly && x'.sys.core.sent.all Sent.isTidy

/-- Where a program takes the machine. -/
def program {F : Type} [PyFloat F] (head : Head F) (lines : List Text) : Head F :=
  lines.foldl carryOut head

/-! ### The answers of the emulator -/

/-- A line that arrives as it is printed. -/
structure Printable (line : Text) : Prop where
  whole : '\n' ∉ line
  ne_nil : line ≠ []
  trimmed : trim line = line

theorem Printable.lineTexts {line : Text} (h : Printable line) :
    lineTexts (toUtf8 line ++ [CR]) = [line] := by
  have hbytes : toUtf8 line ++ [CR] ++ [LF] = toUtf8 (line ++ ['\r', '\n']) := by
    rw [toUtf8_append, List.append_assoc]
    rfl
  have hblank : ∀ c ∈ ['\r', '\n'], isWhitespace c = true := List.all_eq_true.mp (by decide)
  unfold Raydriver.lineTexts
  rw [hbytes, fromUtf8_toUtf8]
  dsimp only
  rw [trim_append line hblank, h.trimmed, lines_of_notMem h.whole h.ne_nil]
  simp [h.ne_nil]

theorem Printable.message {line : Text} (h : Printable line) : LF ∉ toUtf8 line ++ [CR] := by
  rw [List.mem_append, not_or]
  exact ⟨lf_not_mem_toUtf8 h.whole, by decide⟩

/-- A line that informs the command that waits. -/
def isInfo (line : Text) : Bool :=
  Firmware.smoothie.informs line && !line.contains '\n' && !line.isEmpty && trim line == line

theorem infos_spec (line : Text) : ∀ l ∈ infos line, isInfo l = true := by
  intro l hl
  unfold infos at hl
  split_ifs at hl with hversion
  · rw [List.mem_singleton.mp hl]
    decide
  · obtain ⟨key, -, hvalue⟩ := Option.bind_eq_some_iff.mp (Option.mem_toList.mp hl)
    obtain ⟨e, he, rfl⟩ := Option.map_eq_some_iff.mp hvalue
    have hall : ∀ e ∈ Emulator.configValues, isInfo e.2 = true :=
      List.all_eq_true.mp (by decide)
    exact hall e (List.mem_of_find?_eq_some he)

theorem printable_of_isInfo {line : Text} (h : isInfo line = true) : Printable line := by
  unfold isInfo at h
  simp only [Bool.and_eq_true, Bool.not_eq_true', beq_iff_eq] at h
  obtain ⟨⟨⟨-, hwhole⟩, hne⟩, htrim⟩ := h
  exact ⟨by simpa using hwhole, by simpa using hne, htrim⟩

theorem printable_ok : Printable "ok".toList := ⟨by decide, by decide, by decide⟩

/-- The answer of the emulator to a line. -/
def answerOf (line : Text) : Response .smoothie where
  infos := infos line
  ack := "ok".toList
  informs l hl := by
    have h := infos_spec line l hl
    unfold isInfo at h
    simp only [Bool.and_eq_true] at h
    exact h.1.1.1
  acks := rfl

theorem printable_answer (line : Text) : ∀ l ∈ (answerOf line).lines, Printable l := by
  intro l hl
  rcases List.mem_append.mp hl with hl | hl
  · exact printable_of_isInfo (infos_spec line l hl)
  · rw [List.mem_singleton.mp hl]
    exact printable_ok

/-! ### The emulator as a device -/

section Linked

variable {F : Type} [PyFloat F]

/-- How far the machine is with the lines it was given: it has carried out all of them, or all but
the last, which asked for the motion that is under way. -/
inductive Carried (head : Head F) (d : Smoothie F) (lines : List Text) : List Text → Prop
  | rest (hmotions : d.motions.map Motion.target = []) (hhead : d.head = program head lines) :
      Carried head d lines []
  | moving (front : List Text) (line : Text) (target : Vec F) (hlines : lines = front ++ [line])
      (hmotions : d.motions.map Motion.target = [target])
      (hpos : d.head.mpos = (program head front).mpos)
      (hhead : { d.head with mpos := target } = program head lines) :
      Carried head d lines ["ok".toList]

/-- The emulator is the device of the world: the same session, the same bytes on their way, an
answer for each line taken, and the line that ends a motion still to print while it lasts. -/
structure Linked (head : Head F) (x : Loop F) (w : World .smoothie) : Prop where
  sys : w.sys = x.sys
  pipe : w.pipe = x.pipe
  delivered : x.delivered ≤ x.device.txLog.length
  taken : x.taken ≤ x.sys.core.sent.length
  tidy : x.sys.core.sent.all Sent.isTidy = true
  buffer : x.device.lineBuffer = []
  welcomed : x.device.welcomed = true
  answers : w.answers = (linesOf (x.sys.core.sent.take x.taken)).map answerOf
  carried : Carried head x.device (linesOf (x.sys.core.sent.take x.taken)) w.todo

variable {head : Head F} {x x' : Loop F} {w w' : World .smoothie}

/-- A tidy line is a command, and one line. -/
theorem tidy_line {e : Sent} (h : e.isTidy = true) (hline : e.isLine = true) :
    ∃ t i k, e = ⟨.command i k, t ++ ['\n']⟩ ∧ isPlain t = true ∧ strip (t ++ ['\n']) ≠ [] := by
  obtain ⟨origin, payload⟩ := e
  cases origin with
  | command i k =>
    simp only [Sent.isTidy, Bool.and_eq_true, beq_iff_eq, Bool.not_eq_true',
      List.isEmpty_eq_false_iff] at h
    obtain ⟨⟨hlast, hplain⟩, hblank⟩ := h
    have hpayload : payload = payload.dropLast ++ ['\n'] := by
      obtain ⟨t, rfl⟩ := List.getLast?_eq_some_iff.mp hlast
      rw [List.dropLast_concat]
    exact ⟨payload.dropLast, i, k, by rw [← hpayload], hplain, by rw [← hpayload]; exact hblank⟩
  | realtime =>
    have hall : ([['?'], ['!'], ['~']].all fun t => t.getLast? != some '\n') = true := by decide
    simp only [Sent.isTidy, List.contains_iff_mem] at h
    have hpayload := List.all_eq_true.mp hall payload h
    unfold Sent.isLine at hline
    rw [bne, hline] at hpayload
    cases hpayload
  | _ => cases h

/-- Tidy lines are single. -/
theorem tidy_orderly {sent : List Sent} (h : sent.all Sent.isTidy = true) :
    (sent.filter Sent.isLine).filter (fun e => !e.isCommand) = [] ∧
      (sent.filter Sent.isLine).all (fun e => e.payload.count '\n' == 1) = true := by
  have hline : ∀ e ∈ sent.filter Sent.isLine, ∃ t i k, e = ⟨.command i k, t ++ ['\n']⟩ ∧
      isPlain t = true := by
    intro e he
    obtain ⟨hmem, hline⟩ := List.mem_filter.mp he
    obtain ⟨t, i, k, heq, hplain, -⟩ := tidy_line (List.all_eq_true.mp h e hmem) hline
    exact ⟨t, i, k, heq, hplain⟩
  constructor
  · apply List.filter_eq_nil_iff.mpr
    intro e he
    obtain ⟨t, i, k, rfl, -⟩ := hline e he
    simp [Sent.isCommand]
  · apply List.all_eq_true.mpr
    intro e he
    obtain ⟨t, i, k, rfl, hplain⟩ := hline e he
    have hnone : '\n' ∉ t := fun hmem => by
      have := List.all_eq_true.mp hplain _ hmem
      simp at this
    rw [List.count_append, List.count_eq_zero_of_not_mem hnone]
    rfl

/-- A step of the world in which every write is tidy. -/
theorem orderly_of_tidy {l : WorldLabel .smoothie} (hl : l.orderly = true)
    (h : w.core.sent.all Sent.isTidy = true) (h' : w'.core.sent.all Sent.isTidy = true) :
    Orderly w l w' = true := by
  unfold Orderly World.strays World.written
  rw [hl, (tidy_orderly h).1, (tidy_orderly h').1, (tidy_orderly h').2]
  rfl

/-- The world prints the lines it has still to print. -/
theorem run_print (htidy : w.core.sent.all Sent.isTidy = true) (rest : List Text) (ls : List Text)
    (hls : ∀ l ∈ ls, Printable l) (pipe : Bytes) :
    Run World.step (fun w l w' => Orderly w l w' = true) { w with todo := ls ++ rest, pipe := pipe }
      { w with todo := rest, pipe := pipe ++ printed ls } := by
  induction ls generalizing pipe with
  | nil =>
    rw [show printed [] = [] from rfl, List.append_nil]
    exact .refl _
  | cons l ls ih =>
    have hprint := hls l List.mem_cons_self
    have hstep : World.step (.print (toUtf8 l ++ [CR]))
        { w with todo := l :: ls ++ rest, pipe := pipe } =
          some { w with todo := ls ++ rest, pipe := pipe ++ (toUtf8 l ++ [CR] ++ [LF]) } :=
      if_pos ⟨hprint.lineTexts, hprint.message⟩
    have hrest := ih (fun l hl => hls l (List.mem_cons_of_mem _ hl))
      (pipe ++ (toUtf8 l ++ [CR] ++ [LF]))
    have hbytes : pipe ++ printed (l :: ls) =
        pipe ++ (toUtf8 l ++ [CR] ++ [LF]) ++ printed ls := by
      simp [printed]
    rw [hbytes]
    exact (Run.single hstep (orderly_of_tidy rfl htidy htidy)).trans hrest

/-- A device that has something to take has nothing more to print. -/
theorem Matched.ready (h : Matched w) (hlt : w.answers.length < w.written.length) :
    w.todo = [] := by
  cases h.phase with
  | quiet htaken => omega
  | asked i k b front hb hawaits hwritten htaken hremaining =>
    exact (List.append_eq_nil_iff.mp hremaining).2
  | served i k b r front previous hb hawaits hwritten hanswers htaken =>
    rw [hanswers, hwritten, List.length_append, List.length_append, htaken] at hlt
    simp at hlt

end Linked

/-! ### The status reports -/

section Report

variable {F : Type} [PyFloat F] [PyPrints F]

/-- A line in angle brackets arrives as it is printed, and belongs to no command. -/
theorem bracketed_line {t : Text} (h : '\n' ∉ t) :
    Printable ('<' :: t ++ ['>']) ∧ Firmware.smoothie.unsolicited ('<' :: t ++ ['>']) = true := by
  refine ⟨⟨?_, by simp, ?_⟩, ?_⟩
  · simp [h]
  · unfold trim trimEnd
    rw [List.cons_append, List.dropWhile_cons_of_neg (by decide), ← List.cons_append,
      List.rdropWhile_concat_neg _ _ _ (by decide)]
  · have hlast : ('<' :: t ++ ['>']).getLast? = some '>' := List.getLast?_concat
    have hok : Firmware.smoothie.isOk ('<' :: t ++ ['>']) = false := rfl
    have herror : Firmware.smoothie.isError ('<' :: t ++ ['>']) = false := rfl
    have hreport : Firmware.isReport ('<' :: t ++ ['>']) = true := by
      unfold Firmware.isReport
      rw [hlast]
      rfl
    unfold Firmware.unsolicited
    rw [hok, herror, hreport]
    rfl

theorem report_line (d : Smoothie F) :
    Printable d.statusReport ∧ Firmware.smoothie.unsolicited d.statusReport = true := by
  have hfixed : ∀ v : F, '\n' ∉ PyFloat.fixed 3 v := PyPrints.fixed_line 3
  have hposition : '\n' ∉ Emulator.Firmware.join ','
      (d.head.mpos.toList.map fun v => PyFloat.fixed 3 v) := by
    simp [Emulator.Firmware.join, Vec.toList, List.intersperse, hfixed]
  have hstate : '\n' ∉ d.stateText := by
    unfold Smoothie.stateText
    split <;> decide
  unfold Smoothie.statusReport
  generalize Emulator.Firmware.join ',' (d.head.mpos.toList.map fun v => PyFloat.fixed 3 v) =
    position at hposition ⊢
  have hinner := @bracketed_line (d.stateText ++ "|MPos:".toList ++ position ++ "|WPos:".toList ++
    position ++ "|FS:0,0".toList) (by simp [hposition, hstate])
  have heq : '<' :: (d.stateText ++ "|MPos:".toList ++ position ++ "|WPos:".toList ++
      position ++ "|FS:0,0".toList) ++ ['>'] = ['<'] ++ d.stateText ++ "|MPos:".toList ++
        position ++ "|WPos:".toList ++ position ++ "|FS:0,0>".toList := by
    simp
  rw [heq] at hinner
  exact hinner

end Report

/-! ### The steps -/

section Steps

variable {F : Type} [PyFloat F] {head : Head F} {x x' : Loop F} {w w' : World .smoothie}

/-- The runs of the world that the loop is matched by. -/
abbrev OrderlyRun (w w' : World .smoothie) : Prop :=
  Run World.step (fun w l w' => Orderly w l w' = true) w w'

/-- One more write is taken. -/
theorem linesOf_take_succ {sent : List Sent} {n : ℕ} {e : Sent} (he : sent[n]? = some e) :
    linesOf (sent.take (n + 1)) =
      linesOf (sent.take n) ++ if e.isLine then [strip e.payload] else [] := by
  unfold linesOf
  rw [List.take_add_one, he, Option.toList_some, List.filter_append, List.map_append]
  congr 1
  split_ifs with h
  · rw [List.filter_cons_of_pos h, List.filter_nil, List.map_singleton]
  · rw [List.filter_cons_of_neg h, List.filter_nil, List.map_nil]

theorem Linked.length_answers (h : Linked head x w) :
    w.answers.length = (linesOf (x.sys.core.sent.take x.taken)).length := by
  rw [h.answers, List.length_map]

/-- The emulator has taken a write, and answered with `data`. -/
theorem Linked.fed (h : Linked head x w) {e : Sent} (he : x.sys.core.sent[x.taken]? = some e)
    {data : Bytes} (hsys : w'.sys = w.sys) (hpipe : w'.pipe = w.pipe ++ data)
    (hlog : (x.feedOne e).device.txLog = x.device.txLog ++ data)
    (hbuffer : (x.feedOne e).device.lineBuffer = [])
    (hwelcomed : (x.feedOne e).device.welcomed = true)
    (hanswers : w'.answers = (linesOf (x.sys.core.sent.take (x.taken + 1))).map answerOf)
    (hcarried : Carried head (x.feedOne e).device (linesOf (x.sys.core.sent.take (x.taken + 1)))
      w'.todo) : Linked head (x.feedOne e) w' where
  sys := hsys.trans h.sys
  pipe := by
    unfold Loop.pipe
    rw [hlog, hpipe, h.pipe]
    exact (List.drop_append_of_le_length h.delivered).symm
  delivered := by
    rw [hlog, List.length_append]
    exact Nat.le_add_right_of_le h.delivered
  taken := (List.getElem?_eq_some_iff.mp he).1
  tidy := h.tidy
  buffer := hbuffer
  welcomed := hwelcomed
  answers := hanswers
  carried := hcarried

/-- **The emulator takes a line**: nothing else is under way then. -/
theorem Linked.line (h : Linked head x w) (hm : Matched w) {t : Text} {i k : ℕ}
    (he : x.sys.core.sent[x.taken]? = some ⟨.command i k, t ++ ['\n']⟩) (hplain : isPlain t = true)
    (hline : strip (t ++ ['\n']) ≠ []) :
    ∃ w', OrderlyRun w w' ∧ Linked head (x.feedOne ⟨.command i k, t ++ ['\n']⟩) w' := by
  have hisLine : Sent.isLine ⟨.command i k, t ++ ['\n']⟩ = true := isLine_commandLine _ t
  have hlines := linesOf_take_succ he
  rw [if_pos hisLine] at hlines
  have hlt : w.answers.length < w.written.length := by
    have hsent : x.sys.core.sent = x.sys.core.sent.take x.taken ++
        ⟨.command i k, t ++ ['\n']⟩ :: x.sys.core.sent.drop (x.taken + 1) := by
      conv_lhs => rw [← List.take_append_drop x.taken x.sys.core.sent]
      rw [List.drop_eq_getElem?_toList_append, he]
      rfl
    rw [h.length_answers]
    unfold World.written World.core linesOf
    rw [h.sys, hsent, List.filter_append, List.filter_cons_of_pos hisLine]
    simp [← hsent]
  -- a line goes out only when the answer to the one before it has been printed
  have htodo := hm.ready hlt
  have hcarried := h.carried
  rw [htodo] at hcarried
  cases hcarried with
  | rest hmotions hhead =>
    let line := strip (t ++ ['\n'])
    let w₁ : World .smoothie := { w with
      answers := w.answers ++ [answerOf line], todo := (answerOf line).lines }
    have htidy : w.core.sent.all Sent.isTidy = true := by
      unfold World.core
      rw [h.sys]
      exact h.tidy
    -- the world takes the line with the answer the emulator is going to give
    have htake : OrderlyRun w w₁ :=
      .single (l := .take (answerOf line)) (if_pos ⟨htodo, hlt⟩) (orderly_of_tidy rfl htidy htidy)
    have hanswers : w₁.answers = (linesOf (x.sys.core.sent.take (x.taken + 1))).map answerOf := by
      rw [hlines, List.map_append, ← h.answers]
      rfl
    have hfeed : x.device.feedBytes (toUtf8 (t ++ ['\n'])) = x.device.handleLine line :=
      Emulator.Smoothie.feed_line h.welcomed h.buffer hplain
    have hprogram : program head (linesOf (x.sys.core.sent.take x.taken) ++ [line]) =
        carryOut x.device.head line := by
      rw [hhead]
      exact List.foldl_concat _ _ _ _
    have hhandled := Emulator.Smoothie.handleLine_handled hline x.device
    rw [← hfeed] at hhandled
    generalize hdevice : x.device.feedBytes (toUtf8 (t ++ ['\n'])) = d at hhandled
    have hnext : (x.feedOne ⟨.command i k, t ++ ['\n']⟩).device = d := hdevice
    cases hhandled with
    -- answered at once: the whole answer is printed
    | answered =>
      let w₂ : World .smoothie := { w₁ with
        todo := [], pipe := w.pipe ++ printed (answerOf line).lines }
      have hprint : OrderlyRun w₁ w₂ := by
        have hrun :=
          run_print (w := w₁) htidy [] (answerOf line).lines (printable_answer line) w.pipe
        rw [List.append_nil] at hrun
        exact hrun
      refine ⟨w₂, htake.trans hprint, h.fed he rfl rfl ?_ ?_ ?_ hanswers ?_⟩
      · rw [hnext]
        rfl
      · rw [hnext]
        exact h.buffer
      · rw [hnext]
        exact h.welcomed
      · rw [hnext, hlines]
        exact .rest hmotions hprogram.symm
    -- a motion: its `ok` is left to do until it is carried out
    | planned head' m hinfos hpos htarget =>
      have hlast : (answerOf line).lines = ["ok".toList] := congrArg (· ++ ["ok".toList]) hinfos
      refine ⟨w₁, htake, h.fed he rfl (List.append_nil w.pipe).symm ?_ ?_ ?_ hanswers ?_⟩
      · rw [hnext, List.append_nil]
      · rw [hnext]
        exact h.buffer
      · rw [hnext]
        exact h.welcomed
      · rw [hnext, hlines]
        show Carried head _ _ (answerOf line).lines
        rw [hlast]
        refine .moving _ line m.target rfl ?_ (hpos.trans (congrArg Head.mpos hhead)) ?_
        · show (x.device.current.toList ++ (x.device.queue ++ [m])).map Motion.target = _
          rw [← List.append_assoc, List.map_append]
          have hnone : (x.device.current.toList ++ x.device.queue).map Motion.target = [] :=
            hmotions
          rw [hnone]
          rfl
        · exact htarget.trans hprogram.symm

/-- What the machine has to carry out does not depend on holds, nor on what is printed. -/
theorem Carried.congr {d d' : Smoothie F} {lines todo : List Text} (h : Carried head d lines todo)
    (hmotions : d'.motions.map Motion.target = d.motions.map Motion.target)
    (hhead : d'.head = d.head) : Carried head d' lines todo := by
  cases h with
  | rest hnone hall => exact .rest (hmotions.trans hnone) (hhead.trans hall)
  | moving front line target hlines hone hpos hlast =>
    refine .moving front line target hlines (hmotions.trans hone) ?_ ?_
    · rw [hhead]
      exact hpos
    · rw [hhead]
      exact hlast

/-- The emulator takes a byte that takes effect at once. -/
theorem Linked.realtime [PyPrints F] (h : Linked head x w) {payload : Text}
    (he : x.sys.core.sent[x.taken]? = some ⟨.realtime, payload⟩)
    (hpayload : payload ∈ [['?'], ['!'], ['~']]) :
    ∃ w', OrderlyRun w w' ∧ Linked head (x.feedOne ⟨.realtime, payload⟩) w' := by
  have hgreet := Emulator.Smoothie.greet_of_welcomed h.welcomed
  have hbyte : ∀ b, toUtf8 payload = [b] → Emulator.isRealtime b = true →
      (x.feedOne ⟨.realtime, payload⟩).device = x.device.realtime b := by
    intro b hb hrealtime
    show x.device.feedBytes (toUtf8 payload) = _
    rw [hb]
    show x.device.feedByte b = _
    unfold Smoothie.feedByte
    rw [hgreet]
    exact if_pos hrealtime
  have hlines := linesOf_take_succ he
  have hall : ([['?'], ['!'], ['~']].all fun t => !Sent.isLine ⟨.realtime, t⟩) = true := by decide
  rw [if_neg (by simpa using List.all_eq_true.mp hall payload hpayload), List.append_nil] at hlines
  have hanswers : w.answers = (linesOf (x.sys.core.sent.take (x.taken + 1))).map answerOf := by
    rw [hlines]
    exact h.answers
  have hcarried : ∀ {d : Smoothie F}, d.motions = x.device.motions → d.head = x.device.head →
      Carried head d (linesOf (x.sys.core.sent.take (x.taken + 1))) w.todo := by
    intro d hmotions hhead
    rw [hlines]
    exact h.carried.congr (congrArg _ hmotions) hhead
  -- a byte that nothing is printed for
  have hquiet : ∀ d, (x.feedOne ⟨.realtime, payload⟩).device = d → d.txLog = x.device.txLog →
      d.lineBuffer = x.device.lineBuffer → d.welcomed = x.device.welcomed →
      d.motions = x.device.motions → d.head = x.device.head →
      ∃ w', OrderlyRun w w' ∧ Linked head (x.feedOne ⟨.realtime, payload⟩) w' := by
    rintro d rfl hlog hbuffer hwelcomed hmotions hhead
    exact ⟨w, .refl w, h.fed he rfl (List.append_nil w.pipe).symm
      (hlog.trans (List.append_nil _).symm) (hbuffer.trans h.buffer) (hwelcomed.trans h.welcomed)
      hanswers (hcarried hmotions hhead)⟩
  simp only [List.mem_cons, List.not_mem_nil, or_false] at hpayload
  rcases hpayload with rfl | rfl | rfl
  · have hnext := hbyte 0x3F rfl rfl
    obtain ⟨hprintable, hunsolicited⟩ := report_line x.device
    have htidy : w.core.sent.all Sent.isTidy = true := by
      unfold World.core
      rw [h.sys]
      exact h.tidy
    let message := toUtf8 x.device.statusReport ++ [CR]
    let w₁ : World .smoothie := { w with pipe := w.pipe ++ (message ++ [LF]) }
    have hreport : World.step (.report message) w = some w₁ := by
      refine if_pos ⟨?_, hprintable.message⟩
      rw [hprintable.lineTexts, List.all_cons, hunsolicited]
      rfl
    refine ⟨w₁, .single hreport (orderly_of_tidy rfl htidy htidy),
      h.fed he rfl rfl ?_ ?_ ?_ hanswers ?_⟩
    · rw [hnext]
      show x.device.txLog ++ toUtf8 (x.device.statusReport ++ "\r\n".toList) = _
      rw [toUtf8_append, List.append_assoc]
      rfl
    · rw [hnext]
      exact h.buffer
    · rw [hnext]
      exact h.welcomed
    · rw [hnext]
      exact hcarried rfl rfl
  · exact hquiet _ (hbyte 0x21 rfl rfl) rfl rfl rfl rfl rfl
  · exact hquiet _ (hbyte 0x7E rfl rfl) rfl rfl rfl rfl rfl

/-- The emulator takes a write. -/
theorem Linked.entry [PyPrints F] (h : Linked head x w) (hm : Matched w) {e : Sent}
    (he : x.sys.core.sent[x.taken]? = some e) :
    ∃ w', OrderlyRun w w' ∧ Linked head (x.feedOne e) w' := by
  have htidy := List.all_eq_true.mp h.tidy e (List.mem_of_getElem? he)
  by_cases hline : e.isLine = true
  · obtain ⟨t, i, k, rfl, hplain, hblank⟩ := tidy_line htidy hline
    exact h.line hm he hplain hblank
  · obtain ⟨origin, payload⟩ := e
    cases origin with
    | realtime =>
      simp only [Sent.isTidy, List.contains_iff_mem] at htidy
      exact h.realtime he htidy
    | command i k =>
      simp only [Sent.isTidy, Bool.and_eq_true] at htidy
      exact absurd htidy.1.1 hline
    | _ => cases htidy

/-- **The emulator takes what was written.** -/
theorem Linked.feed [PyPrints F] : ∀ (es : List Sent) {x : Loop F} {w : World .smoothie},
    Linked head x w → Matched w → x.sys.core.sent.drop x.taken = es →
    ∃ w', OrderlyRun w w' ∧ Linked head (es.foldl Loop.feedOne x) w'
  | [], _, w, h, _, _ => ⟨w, .refl w, h⟩
  | e :: es, x, w, h, hm, hes => by
    have he : x.sys.core.sent[x.taken]? = some e := by
      have hhead := congrArg List.head? hes
      rwa [List.head?_drop] at hhead
    obtain ⟨w₁, hrun, h₁⟩ := h.entry hm he
    have hm₁ : Matched w₁ := hrun.invariant (fun _ _ _ hm hs hok => hm.step rfl hs hok) hm
    have hes₁ : (x.feedOne e).sys.core.sent.drop (x.feedOne e).taken = es := by
      show x.sys.core.sent.drop (x.taken + 1) = es
      rw [← List.tail_drop, hes]
      rfl
    obtain ⟨w₂, hrun₂, h₂⟩ := Linked.feed es h₁ hm₁ hes₁
    exact ⟨w₂, hrun.trans hrun₂, h₂⟩

/-- **A tick of the emulator**: the end of a motion acknowledges the line that asked for it. -/
theorem Linked.tick [PyPower F] (h : Linked head x w) {now : F} {d : Smoothie F}
    (hd : x.device.tick now = some d) :
    ∃ w', OrderlyRun w w' ∧ Linked head { x with device := d } w' := by
  have htidy : w.core.sent.all Sent.isTidy = true := by
    unfold World.core
    rw [h.sys]
    exact h.tidy
  cases Emulator.Smoothie.tick_ticked hd with
  -- no motion ends: the abstract device does nothing
  | on hhead hbuffer hwelcomed hlog hmotions =>
    refine ⟨w, .refl w, ⟨h.sys, ?_, ?_, h.taken, h.tidy, hbuffer.trans h.buffer,
      hwelcomed.trans h.welcomed, h.answers, h.carried.congr hmotions hhead⟩⟩
    · unfold Loop.pipe
      rw [hlog]
      exact h.pipe
    · show x.delivered ≤ d.txLog.length
      rw [hlog]
      exact h.delivered
  | ended m hhead hbuffer hwelcomed hlog hheld hmotions =>
    obtain ⟨todo, htodo⟩ : ∃ todo, todo = w.todo := ⟨_, rfl⟩
    have hcarried := h.carried
    rw [← htodo] at hcarried
    cases hcarried with
    | rest hnone hall =>
      rw [hnone] at hmotions
      cases hmotions
    | moving front line target hlines hone hpos hlast =>
      rw [hone] at hmotions
      obtain ⟨rfl, hnone⟩ := List.cons.inj hmotions
      let w₁ : World .smoothie := { w with
        todo := [], pipe := w.pipe ++ printed ["ok".toList] }
      -- the motion has ended, and the device prints the `ok` it still owed
      have hprint : OrderlyRun w w₁ := by
        have hrun := run_print (w := w) htidy [] ["ok".toList]
          (fun l hl => by rw [List.mem_singleton.mp hl]; exact printable_ok) w.pipe
        have hstart : ({ w with todo := ["ok".toList] } : World .smoothie) = w := by rw [htodo]
        rw [List.append_nil, hstart] at hrun
        exact hrun
      refine ⟨w₁, hprint, ⟨h.sys, ?_, ?_, h.taken, h.tidy, hbuffer.trans h.buffer,
        hwelcomed.trans h.welcomed, h.answers, .rest hnone (hhead.trans hlast)⟩⟩
      · show w.pipe ++ printed ["ok".toList] = d.txLog.drop x.delivered
        rw [hlog, h.pipe]
        exact (List.drop_append_of_le_length h.delivered).symm
      · show x.delivered ≤ d.txLog.length
        rw [hlog, List.length_append]
        exact Nat.le_add_right_of_le h.delivered

/-- A step of the session only appends to what was handed to the transport. -/
theorem sent_extends {fw : Firmware} {l : Label} {s u : Sys} (hs : Sys.step fw l s = some u) :
    s.core.sent <+: u.core.sent := by
  have hsame : u.core.sent = s.core.sent → s.core.sent <+: u.core.sent := fun h => by rw [h]
  by_cases hl : ∃ i ch, l = .task i ch
  · obtain ⟨i, ch, rfl⟩ := hl
    obtain ⟨b, c', b', hb, -, hadv, rfl⟩ := Sys.step_task hs
    cases advance_effect hadv with
    | quiet h => exact hsame (congrArg Exchange.sent h)
    | begins command err hatWrite hlock h =>
      exact ⟨_, (congrArg Exchange.sent h).symm⟩
    | ends cmd hlock h =>
      refine hsame ((congrArg Exchange.sent h).trans ?_)
      unfold Core.dropPending
      split_ifs <;> rfl
    | writes e he h => exact ⟨_, (congrArg Exchange.sent h).symm⟩
    | stops err em hcancel h =>
      rcases h with h | h
      · exact ⟨_, (congrArg Exchange.sent h).symm⟩
      · exact hsame (congrArg Exchange.sent h)
  · obtain ⟨-, haside⟩ := Sys.step_other hs fun i ch hi => hl ⟨i, ch, hi⟩
    apply hsame
    cases haside with
    | rx data hlabel hcore htasks =>
      have hframe := @handleRx_frame fw data s.core
      rw [hcore, hframe.sent]
    | drop i pc hlabel hi hcore htasks =>
      rw [hcore]
      split_ifs <;> rfl
    | cleanup hlabel hcore htasks =>
      rw [hcore]
      rfl
    | call op b hlabel hb hcore htasks => rw [hcore]
    | link up hlabel hcore htasks => rw [hcore]
    | announce hlabel hcore htasks => rw [hcore]

/-- A step of the session. -/
theorem Linked.host (h : Linked head x w) {l : Label} {s : Sys} {n : ℕ}
    (hs : Sys.step .smoothie l x.sys = some s) (htidy : s.core.sent.all Sent.isTidy = true) :
    Linked head { x with sys := s, delivered := x.delivered + (x.pipe.take n).length }
      { w with sys := s, pipe := w.pipe.drop n } := by
  have hextends := sent_extends hs
  have htaken : s.core.sent.take x.taken = x.sys.core.sent.take x.taken := by
    obtain ⟨tail, htail⟩ := hextends
    rw [← htail, List.take_append_of_le_length h.taken]
  refine ⟨rfl, ?_, ?_, h.taken.trans hextends.length_le, htidy, h.buffer, h.welcomed, ?_, ?_⟩
  · show w.pipe.drop n = x.device.txLog.drop (x.delivered + (x.pipe.take n).length)
    rw [h.pipe, ← List.drop_drop, List.length_take]
    show x.pipe.drop n = x.pipe.drop (min n x.pipe.length)
    rcases Nat.le_total n x.pipe.length with hn | hn
    · rw [Nat.min_eq_left hn]
    · rw [Nat.min_eq_right hn, List.drop_length, List.drop_eq_nil_of_le hn]
  · have hlength : x.pipe.length = x.device.txLog.length - x.delivered := List.length_drop
    have hdelivered := h.delivered
    rw [List.length_take]
    show x.delivered + min n x.pipe.length ≤ x.device.txLog.length
    omega
  · show w.answers = (linesOf (s.core.sent.take x.taken)).map answerOf
    rw [htaken]
    exact h.answers
  · show Carried head x.device (linesOf (s.core.sent.take x.taken)) w.todo
    rw [htaken]
    exact h.carried

/-- **The closed loop refines the session with an abstract device.** -/
theorem matches_world [PyPower F] [PyPrints F] (head : Head F) :
    Matches Loop.step (fun x l x' => Tidy x l x' = true) World.step
      (fun w l w' => Orderly w l w' = true) Matched (Linked head) := by
  intro x l x' w h hm hs hok
  unfold Tidy at hok
  rw [Bool.and_eq_true] at hok
  obtain ⟨horderly, htidy⟩ := hok
  have hbefore : w.core.sent.all Sent.isTidy = true := by
    unfold World.core
    rw [h.sys]
    exact h.tidy
  cases l with
  | feed =>
    cases hs
    exact h.feed _ hm rfl
  | tick now =>
    obtain ⟨d, hd, rfl⟩ := Option.map_eq_some_iff.mp hs
    exact h.tick hd
  | deliver n =>
    obtain ⟨s, hstep, rfl⟩ := Option.map_eq_some_iff.mp hs
    refine ⟨{ w with sys := s, pipe := w.pipe.drop n }, .single (l := .deliver n) ?_
      (orderly_of_tidy rfl hbefore htidy), h.host hstep htidy⟩
    show (Sys.step .smoothie (.rx (w.pipe.take n)) w.sys).map _ = _
    rw [h.pipe, h.sys, hstep]
    rfl
  | host l =>
    -- the session hears nothing but the emulator
    have hrx : ∀ data, l ≠ .rx data := by
      rintro data rfl
      cases hs
    have hmap : (Sys.step .smoothie l x.sys).map (fun s => { x with sys := s }) = some x' := by
      cases l with
      | rx data => exact absurd rfl (hrx data)
      | _ => exact hs
    obtain ⟨s, hstep, rfl⟩ := Option.map_eq_some_iff.mp hmap
    have hlinked := h.host (n := 0) hstep htidy
    have hx : ({ x with sys := s, delivered := x.delivered + (x.pipe.take 0).length } : Loop F) =
        { x with sys := s } := rfl
    rw [hx, List.drop_zero] at hlinked
    refine ⟨{ w with sys := s }, .single (l := .host l) ?_
      (orderly_of_tidy horderly hbefore htidy), hlinked⟩
    have hworld : (Sys.step .smoothie l w.sys).map (fun s => { w with sys := s }) =
        some { w with sys := s } := by
      rw [h.sys, hstep]
      rfl
    cases l with
    | rx data => exact absurd rfl (hrx data)
    | _ => exact hworld

end Steps

/-! ### The runs -/

section Runs

variable {F : Type} [PyFloat F] [PyPower F] [PyPrints F] {x₀ x : Loop F}

/-- A new session, and an emulator that has been greeted and rests. -/
structure Loop.Fresh (x : Loop F) : Prop where
  tasks : x.sys.tasks = []
  active : x.sys.active = none
  sent : x.sys.core.sent = []
  lineBuffer : x.sys.core.lineBuffer = []
  welcomed : x.device.welcomed = true
  buffer : x.device.lineBuffer = []
  motions : x.device.motions = []
  taken : x.taken = 0
  delivered : x.delivered = x.device.txLog.length

omit [PyPower F] [PyPrints F] in
theorem Loop.Fresh.linked (h : x.Fresh) :
    Linked x.device.head x { sys := x.sys } ∧ Matched ({ sys := x.sys } : World .smoothie) := by
  have hnone : linesOf (x.sys.core.sent.take x.taken) = [] := by
    rw [h.sent, List.take_nil]
    rfl
  constructor
  · refine ⟨rfl, ?_, h.delivered.le, h.taken ▸ Nat.zero_le _, ?_, h.buffer, h.welcomed, ?_, ?_⟩
    · show [] = x.device.txLog.drop x.delivered
      rw [h.delivered, List.drop_length]
    · rw [h.sent]
      rfl
    · rw [hnone]
      rfl
    · rw [hnone]
      exact .rest (congrArg _ h.motions) rfl
  · exact World.Fresh.matched ⟨h.tasks, h.sent, h.lineBuffer, rfl, rfl, rfl⟩

/-- A run of the loop is matched by an orderly run of the session with a device. -/
theorem linked_of_run (h0 : x₀.Fresh)
    (hr : Run Loop.step (fun x l x' => Tidy x l x' = true) x₀ x) :
    ∃ w, Linked x₀.device.head x w ∧ Matched w := by
  obtain ⟨hlinked, hmatched⟩ := h0.linked
  obtain ⟨w, -, h⟩ := (matches_world x₀.device.head).run
    (fun _ _ _ hm hs hok => hm.step rfl hs hok) hr hlinked hmatched
  exact ⟨w, h⟩

omit [PyPower F] [PyPrints F] in
/-- When nothing is under way, every line written has been carried out. -/
theorem Linked.at_rest {head : Head F} {w : World .smoothie} (h : Linked head x w)
    (htaken : w.answers.length = w.written.length) (hremaining : w.remaining = []) :
    x.device.motions = [] ∧ x.device.head = program head (linesOf x.sys.core.sent) := by
  have htodo : w.todo = [] := (List.append_eq_nil_iff.mp hremaining).2
  have hcarried := h.carried
  rw [htodo] at hcarried
  have hlines : linesOf (x.sys.core.sent.take x.taken) = linesOf x.sys.core.sent := by
    have hprefix : linesOf (x.sys.core.sent.take x.taken) <+: linesOf x.sys.core.sent :=
      ((List.take_prefix _ _).filter _).map _
    apply hprefix.eq_of_length
    rw [← h.length_answers, htaken]
    unfold World.written World.core linesOf
    rw [h.sys, List.length_map]
  cases hcarried with
  | rest hmotions hhead =>
    rw [hlines] at hhead
    exact ⟨List.map_eq_nil_iff.mp hmotions, hhead⟩

/-- **The machine obeys its commands.**  Behind `SmoothieCore` runs the Smoothieware emulator,
which takes the writes and ticks whenever it likes and whose bytes are delivered in any chunks.
In every run in which no wait expires, no command is cancelled, the link stays up, and what is
written are commands on one line and the realtime bytes of polls and feed holds: an exchange
that returned has the answer of the emulator to its own command, and whenever no exchange is
under way, no motion is, and the machine is where the lines written take it one after the other. -/
theorem machine_obeys_commands (h0 : x₀.Fresh)
    (hr : Run Loop.step (fun x l x' => Tidy x l x' = true) x₀ x) :
    (∀ (i : ℕ) (b : Body) (k : ℕ) (ls : List Text), x.sys.tasks[i]? = some b →
      b.ping = some (true, .returned (some k) ls none) →
      ls = infos (strip (commandLine b.command)) ++ ["ok".toList]) ∧
    ((∀ (i : ℕ) (b : Body) (k : ℕ), x.sys.tasks[i]? = some b → ¬b.awaits k) →
      x.device.motions = [] ∧
        x.device.head = program x₀.device.head (linesOf x.sys.core.sent)) := by
  obtain ⟨w, h, hm⟩ := linked_of_run h0 hr
  constructor
  · intro i b k ls hb hret
    rw [← h.sys] at hb
    obtain ⟨n, r, hwritten, hanswer, rfl⟩ := hm.returned i b k ls hb hret
    rw [h.answers, List.getElem?_map] at hanswer
    obtain ⟨line, hline, rfl⟩ := Option.map_eq_some_iff.mp hanswer
    -- the answer stands where its line does, among the lines the emulator has taken
    have hall : (linesOf x.sys.core.sent)[n]? = some (strip (commandLine b.command)) := by
      unfold World.written World.core at hwritten
      unfold linesOf
      rw [← h.sys, List.getElem?_map, hwritten]
      rfl
    have hprefix : linesOf (x.sys.core.sent.take x.taken) <+: linesOf x.sys.core.sent :=
      ((List.take_prefix _ _).filter _).map _
    obtain ⟨tail, htail⟩ := hprefix
    rw [← htail, List.getElem?_append_left (List.getElem?_eq_some_iff.mp hline).1, hline] at hall
    rw [Option.some.inj hall]
    rfl
  · intro hidle
    cases hm.phase with
    | quiet htaken hremaining => exact h.at_rest htaken hremaining
    | asked i k b front hb hawaits =>
      rw [h.sys] at hb
      exact absurd hawaits (hidle i b k hb)
    | served i k b r front previous hb hawaits =>
      rw [h.sys] at hb
      exact absurd hawaits (hidle i b k hb)

end Runs

/-- A new session, and the emulator behind it. -/
def freshLoop : Loop ℚ where
  sys := { core := {} }
  device := { Smoothie.new 2000 with welcomed := true }

theorem fresh_freshLoop : freshLoop.Fresh := ⟨rfl, rfl, rfl, rfl, rfl, rfl, rfl, rfl, rfl⟩

/-- Steps of task 0. -/
def hostTurns (n : ℕ) : List (LoopLabel ℚ) := (turns 0 n).map .host

/-- The emulator takes a line, and its `ok` is delivered after a motion. -/
def moved : List (LoopLabel ℚ) := [.feed, .tick 1, .tick 2, .deliver 4]

/-- A command that moves the machine. -/
def movingCommand : List (LoopLabel ℚ) :=
  .host (.call (.execute "G1 X2.5 F600".toList)) :: (hostTurns 6 ++ (moved ++ hostTurns 1))

/-- The command has returned, and the machine is where it was told to go. -/
theorem machine_obeys_commands_move :
    let x := reach Loop.step movingCommand freshLoop
    x.device.motions = [] ∧ x.device.head = ⟨⟨5 / 2, 0, 0⟩, true, 600⟩ := by
  have htasks : (reach Loop.step movingCommand freshLoop).sys.tasks =
      [.execute "G1 X2.5 F600".toList (.ping (.returned (some 0) ["ok".toList] none))] := by
    decide +kernel
  have hprogram : program freshLoop.device.head
      (linesOf (reach Loop.step movingCommand freshLoop).sys.core.sent) =
        ⟨⟨5 / 2, 0, 0⟩, true, 600⟩ := by
    decide +kernel
  rw [← hprogram]
  refine (machine_obeys_commands fresh_freshLoop (run_reach_guarded (by decide +kernel))).2 ?_
  intro i b k hb
  rw [htasks, List.getElem?_singleton] at hb
  split_ifs at hb
  cases hb
  exact not_awaits rfl (by simp) k

/-! ### Jobs -/

section Jobs

variable {F : Type} [PyFloat F] [PyPower F] [PyPrints F] {x₀ x : Loop F}

end Jobs

end Raydriver.PingPong
