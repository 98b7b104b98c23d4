import Raydriver.PingPong.Device

/-!
# Every command gets its own response

The acknowledgements of a device carry no identity.  A command of `SimpleCore` or
`SmoothieCore` takes whatever comes while it waits, and the answer to another one would do.
That it is the answer to this one rests on three things: the exchanges exclude one another, none
of them is left before its answer is there, and no line is written outside of them.

## Main definitions

* `Orderly` — no wait expires, no command is cancelled, and commands are the only lines written.
* `Slot r rest q` — the command has the lines of its answer `r` but for `rest`.
* `Exchanging` — no command is under way, or the device has to take it, or to answer it.
* `Answered` — the response to the command of a task.

## Main results

* `advance_move` — a step of a task is a step of its exchange, or one beside it.
* `Matched.step` — the invariant is kept by every orderly step.
* `command_gets_its_response` — **a command returns the answer to that command, all of it, and
  nothing else.**
-/

namespace Raydriver.PingPong

open Lts

/-! ### Orderly runs -/

/-- The write of a command. -/
def Sent.isCommand (e : Sent) : Bool :=
  match e.origin with
  | .command _ _ => true
  | _ => false

/-- The lines written that are not commands. -/
def World.strays {fw : Firmware} (w : World fw) : List Sent :=
  w.written.filter fun e => !e.isCommand

/-- No wait expires, and neither a `cancel` nor the end of the connection resolves a command. -/
def WorldLabel.orderly {fw : Firmware} : WorldLabel fw → Bool
  | .host (.task _ ch) => !ch.timedOut
  | .host (.call (.cancel _)) | .host .cleanup | .host (.link false) => false
  | _ => true

/-- The same, and every line written is one command. -/
def Orderly {fw : Firmware} (w : World fw) (l : WorldLabel fw) (w' : World fw) : Bool :=
  l.orderly && decide (w'.strays = w.strays) && w'.written.all fun e => e.payload.count '\n' == 1

/-! ### The moves of a task -/

/-- The command of an exchange. -/
def Body.command : Body → Text
  | .run _ (.ping _ line _ _) => line
  | .execute command _ => command
  | .poll _ => "M114".toList
  | _ => []

/-- The task awaits the end of the exchange of command `k`, which was written. -/
def Body.awaits (b : Body) (k : ℕ) : Prop :=
  b.ping = some (true, .writing k none) ∨ b.ping = some (true, .wait k)

/-- The exchange is over. -/
def PingPc.isReturned : PingPc → Bool
  | .returned _ _ _ => true
  | _ => false

/-- The task runs a `cancel`. -/
def Body.isCancel : Body → Bool
  | .cancel _ _ => true
  | _ => false

/-- A step of a task: one of its exchange, or one beside it. -/
inductive Move (fw : Firmware) (i : ℕ) (ch : Choice) (b b' : Body) (c c' : Core) : Prop
  | ping (serialize : Bool) (pc pc' : PingPc) (hb : b.ping = some (serialize, pc))
      (hb' : b'.ping = some (serialize, pc')) (hcommand : b'.command = b.command)
      (h : advancePing fw i serialize b.command ch c pc = some (c', pc'))
  | aside (hb : ∀ s pc, b.ping = some (s, pc) → pc.isReturned = true)
      (hb' : ∀ s pc, b'.ping = some (s, pc) → pc = .enter ∨ s = false ∧ pc = .locked)
      (h : c'.exchange = c.exchange ∨ ∃ e : Sent, (∀ t cmd, e.origin ≠ .command t cmd) ∧
        c'.exchange = { c with sent := c.sent ++ [e] }.exchange)

section Moves

variable {fw : Firmware} {i : ℕ} {ch : Choice} {c c' : Core} {b b' : Body}

/-- What a task does that is in no exchange, and runs no `cancel`. -/
theorem Effect.beside (h : Effect fw i b c c') (hping : b.ping = none) (hheld : b.holding = false)
    (hcancel : b.isCancel = false) :
    c'.exchange = c.exchange ∨ ∃ e : Sent, (∀ t cmd, e.origin ≠ .command t cmd) ∧
      c'.exchange = { c with sent := c.sent ++ [e] }.exchange := by
  have hpoll : b.isPollPing = false := by
    unfold Body.isPollPing
    rw [hping]
    rfl
  cases h with
  | quiet h => exact .inl h
  | begins command err hb hlock h =>
    unfold Body.atWrite at hb
    rw [hping] at hb
    cases hb
  | ends cmd hlock h =>
    rw [hheld, hpoll] at hlock
    rcases hlock with hlock | hlock <;> cases hlock
  | writes e he h => exact .inr ⟨e, he, h⟩
  | stops err em hb h =>
    rw [hb] at hcancel
    cases hcancel

/-- A task that is in no exchange after the step. -/
theorem Move.beside (h : Effect fw i b c c') (hping : b.ping = none) (hheld : b.holding = false)
    (hcancel : b.isCancel = false) (hb' : b'.ping = none) : Move fw i ch b b' c c' := by
  refine .aside ?_ ?_ (h.beside hping hheld hcancel)
  · intro s pc hpc
    rw [hping] at hpc
    cases hpc
  · intro s pc hpc
    rw [hb'] at hpc
    cases hpc

/-- A task at another point of its exchange awaits nothing. -/
theorem not_awaits {serialize : Bool} {pc : PingPc} (hping : b.ping = some (serialize, pc))
    (h : ∀ k, pc ≠ .writing k none ∧ pc ≠ .wait k) (k : ℕ) : ¬b.awaits k := by
  unfold Body.awaits
  rw [hping]
  rintro (hk | hk)
  · cases hk
    exact (h k).1 rfl
  · cases hk
    exact (h k).2 rfl

theorem not_awaits_of_none (hping : b.ping = none) (k : ℕ) : ¬b.awaits k := by
  unfold Body.awaits
  rw [hping]
  rintro (hk | hk) <;> cases hk

theorem advanceRun_move {job : Job} {pc pc' : RunPc}
    (h : advanceRun fw i job ch c pc = some (c', pc')) :
    Move fw i ch (.run job pc) (.run job pc') c c' := by
  have heffect := advanceRun_effect h
  cases pc with
  | ping idx line rest pc =>
    simp only [advanceRun] at h
    split at h
    · cases h
      exact .aside (fun s pc hpc => by cases hpc; rfl) (fun s pc hpc => by cases hpc) (.inl rfl)
    · cases h
      refine .aside (fun s pc hpc => by cases hpc; rfl) (fun s pc hpc => ?_) (.inl rfl)
      split_ifs at hpc <;> cases hpc
    · obtain ⟨⟨c1, pc1⟩, h1, h2⟩ := Option.map_eq_some_iff.mp h
      cases h2
      exact .ping true _ _ rfl rfl rfl h1
  | top idx rest =>
    cases rest with
    | nil =>
      cases h
      exact .aside (fun s pc hpc => by cases hpc) (fun s pc hpc => by cases hpc) (.inl rfl)
    | cons rawLine rest =>
      simp only [advanceRun] at h
      split_ifs at h <;> cases h
      · exact .aside (fun s pc hpc => by cases hpc) (fun s pc hpc => by cases hpc) (.inl rfl)
      · exact .aside (fun s pc hpc => by cases hpc) (fun s pc hpc => by cases hpc) (.inl rfl)
      · refine .aside (fun s pc hpc => by cases hpc) (fun s pc hpc => ?_)
          (.inl (exchange_reportOp _ _))
        cases hpc
        exact .inl rfl
  | rawNext realtime =>
    refine .beside heffect rfl rfl rfl ?_
    cases realtime <;> simp only [advanceRun] at h <;> split_ifs at h <;> cases h <;> rfl
  | rawWriting realtime err =>
    refine .beside heffect rfl rfl rfl ?_
    cases h
    split_ifs <;> rfl
  | ended interrupted =>
    refine .beside heffect rfl rfl rfl ?_
    cases h
    split_ifs <;> rfl
  | shutdown was pc =>
    refine .beside heffect rfl rfl rfl ?_
    simp only [advanceRun] at h
    split at h
    · cases h
      rfl
    · obtain ⟨⟨c1, pc1⟩, h1, h2⟩ := Option.map_eq_some_iff.mp h
      cases h2
      rfl
  | returned => cases h
  | _ =>
    cases h
    exact .beside heffect rfl rfl rfl rfl

theorem advancePoll_move {pc pc' : PollPc} (h : advancePoll fw i ch c pc = some (c', pc')) :
    Move fw i ch (.poll pc) (.poll pc') c c' := by
  cases pc with
  | ping pc =>
    simp only [advancePoll] at h
    split at h
    · cases h
      refine .aside (fun s pc hpc => by cases hpc; rfl) (fun s pc hpc => ?_) (.inl rfl)
      split_ifs at hpc <;> cases hpc
    · obtain ⟨⟨c1, pc1⟩, h1, h2⟩ := Option.map_eq_some_iff.mp h
      cases h2
      exact .ping false _ _ rfl rfl rfl h1
  | top =>
    simp only [advancePoll] at h
    split_ifs at h with hopen hjob hmarlin
    · cases h
      exact .aside (fun s pc hpc => by cases hpc) (fun s pc hpc => by cases hpc) (.inl rfl)
    · cases h
      exact .aside (fun s pc hpc => by cases hpc) (fun s pc hpc => by cases hpc) (.inl rfl)
    · cases h
      refine .aside (fun s pc hpc => by cases hpc) (fun s pc hpc => ?_) (.inl rfl)
      cases hpc
      exact .inr ⟨rfl, rfl⟩
    · cases h
      exact .aside (fun s pc hpc => by cases hpc) (fun s pc hpc => by cases hpc) (.inl rfl)
  | locked =>
    simp only [advancePoll] at h
    split_ifs at h <;> cases h
    · refine .aside (fun s pc hpc => by cases hpc) (fun s pc hpc => by cases hpc) ?_
      cases ch.writeError with
      | none => exact .inr ⟨⟨.realtime, ['?']⟩, fun t cmd h => (by cases h), rfl⟩
      | some e => exact .inl (by simp [Core.exchange, Core.write])
    · exact .aside (fun s pc hpc => by cases hpc) (fun s pc hpc => by cases hpc) (.inl rfl)
  | writing err =>
    cases h
    refine .aside (fun s pc hpc => by cases hpc) (fun s pc hpc => ?_) (.inl rfl)
    split_ifs at hpc <;> cases hpc
  | lockWait =>
    simp only [advancePoll] at h
    split_ifs at h
    cases h
    exact .aside (fun s pc hpc => by cases hpc) (fun s pc hpc => by cases hpc) (.inl rfl)
  | sleep =>
    cases h
    exact .aside (fun s pc hpc => by cases hpc) (fun s pc hpc => by cases hpc) (.inl rfl)
  | returned => cases h

/-- **A step of a task is a step of its exchange, or one beside it.** -/
theorem advance_move (h : advance fw i ch c b = some (c', b')) (hcancel : b.isCancel = false) :
    Move fw i ch b b' c c' := by
  have heffect := advance_effect h
  cases b with
  | run job pc =>
    obtain ⟨⟨c1, pc1⟩, h1, h2⟩ := Option.map_eq_some_iff.mp h
    cases h2
    exact advanceRun_move h1
  | execute command pc =>
    obtain ⟨⟨c1, pc1⟩, h1, h2⟩ := Option.map_eq_some_iff.mp h
    cases h2
    cases pc with
    | start =>
      cases h1
      refine .aside (fun s pc hpc => by cases hpc) (fun s pc hpc => ?_) (.inl rfl)
      cases hpc
      exact .inl rfl
    | ping pc =>
      obtain ⟨⟨c2, pc2⟩, h2, h3⟩ := Option.map_eq_some_iff.mp h1
      cases h3
      exact .ping true _ _ rfl rfl rfl h2
  | cancel em pc => cases hcancel
  | hold hold pc =>
    obtain ⟨⟨c1, pc1⟩, h1, h2⟩ := Option.map_eq_some_iff.mp h
    cases h2
    exact .beside heffect rfl rfl rfl rfl
  | poll pc =>
    obtain ⟨⟨c1, pc1⟩, h1, h2⟩ := Option.map_eq_some_iff.mp h
    cases h2
    exact advancePoll_move h1

/-- A step never changes which function a task runs. -/
theorem advance_isCancel (h : advance fw i ch c b = some (c', b')) : b'.isCancel = b.isCancel := by
  cases b with
  | _ =>
    obtain ⟨⟨c1, pc1⟩, -, h2⟩ := Option.map_eq_some_iff.mp h
    cases h2
    rfl

end Moves

/-! ### The command that waits -/

/-- A command has received the lines of its answer `r` but for `rest`. -/
inductive Slot {fw : Firmware} (r : Response fw) : List Text → PendingCmd → Prop
  | waiting (rest : List Text) (q : PendingCmd) (hrest : rest ≠ []) (hopen : q.finished = false)
      (hlines : q.lines ++ rest = r.lines) : Slot r rest q
  | answered (q : PendingCmd) (hfinished : q.finished = true) (hlines : q.lines = r.result) :
      Slot r [] q

section Slots

variable {fw : Firmware} {r : Response fw} {k : ℕ} {c : Core} {q : PendingCmd} {line : Text}
  {rest : List Text}

/-- A command that waits: the next line of its answer informs it, or is the last. -/
theorem Slot.head (h : Slot r (line :: rest) q) :
    q.finished = false ∧ ((fw.informs line = true ∧ rest ≠ [] ∧ q.lines ++ line :: rest = r.lines) ∨
      (line = r.ack ∧ rest = [] ∧ q.lines = r.infos)) := by
  cases h with
  | waiting _ _ hrest hopen hlines =>
    refine ⟨hopen, ?_⟩
    rcases List.eq_nil_or_concat rest with rfl | ⟨front, last, rfl⟩
    · obtain ⟨hinfos, hack⟩ := List.append_inj' hlines rfl
      exact .inr ⟨List.singleton_inj.mp hack, rfl, hinfos⟩
    · refine .inl ⟨?_, by simp, hlines⟩
      have hsplit : (q.lines ++ line :: front) ++ [last] = r.infos ++ [r.ack] := by
        change _ = r.lines
        rw [← hlines]
        simp
      obtain ⟨hinfos, -⟩ := List.append_inj' hsplit rfl
      apply r.informs
      rw [← hinfos]
      simp

/-- The oldest command, and the others. -/
theorem cmds_onFront (hpending : c.pending.head? = some k) (f : PendingCmd → PendingCmd) :
    (c.onFront f).cmds = c.cmds.modify k f := by
  unfold Core.onFront
  rw [hpending]
  rfl

theorem answer_of_open (n : ℕ) (last : Option Text) (h : q.finished = false) :
    q.answer n last =
      { lines := q.lines ++ last.toList, finished := true, finishedBy := some n } := by
  unfold PendingCmd.answer
  rw [h]
  rfl

theorem kept_toList (fw : Firmware) (ack : Text) : (fw.kept ack).head?.toList = fw.kept ack := by
  unfold Firmware.kept
  split_ifs
  · cases fw.okLine ack <;> rfl
  · rfl

/-- **A line of its answer reaches the command that waits.** -/
theorem Slot.handleLine (hpending : c.pending.head? = some k)
    (hq : c.cmds[k]? = some q) (h : Slot r (line :: rest) q) :
    ∃ q', (c.handleLine fw line).cmds[k]? = some q' ∧ Slot r rest q' := by
  obtain ⟨hopen, ⟨hinforms, hrest, hlines⟩ | ⟨rfl, rfl, hlines⟩⟩ := h.head
  · refine ⟨q.collect line, ?_, ?_⟩
    · rw [handleLine_informs hinforms, cmds_onFront hpending, List.getElem?_modify_eq, hq]
      rfl
    · have hcollect : q.collect line = q.addLine line := by
        unfold PendingCmd.collect
        rw [hopen]
        rfl
      rw [hcollect]
      refine .waiting _ _ hrest hopen ?_
      show q.lines ++ [line] ++ rest = r.lines
      rw [List.append_assoc]
      exact hlines
  · refine ⟨q.answer c.received (fw.kept r.ack).head?, ?_, ?_⟩
    · rw [handleLine_acks r.acks, cmds_onFront hpending, List.getElem?_modify_eq, hq]
      rfl
    · rw [answer_of_open _ _ hopen]
      refine .answered _ rfl ?_
      show q.lines ++ (fw.kept r.ack).head?.toList = r.result
      rw [kept_toList, hlines]
      rfl

/-- The session waits with command `k`, and is to receive `lines` before the rest of the
answer. -/
def Serving (k : ℕ) (r : Response fw) (todo : List Text) (c : Core) (lines : List Text) : Prop :=
  c.pending = [k] ∧
    ∃ q, c.cmds[k]? = some q ∧ Slot r (lines.filter (fun line => !fw.unsolicited line) ++ todo) q

theorem Serving.handleLine (hfw : fw.oneSlot = true) {todo lines : List Text}
    (h : Serving k r todo c (line :: lines)) : Serving k r todo (c.handleLine fw line) lines := by
  obtain ⟨hpending, q, hq, hslot⟩ := h
  refine ⟨(handleLine_frame line c).pending.trans hpending, ?_⟩
  by_cases hunsolicited : fw.unsolicited line = true
  · rw [List.filter_cons_of_neg (by simp [hunsolicited])] at hslot
    exact ⟨q, by rw [handleLine_unsolicited hfw hunsolicited]; exact hq, hslot⟩
  · rw [List.filter_cons_of_pos (by simpa using hunsolicited), List.cons_append] at hslot
    exact hslot.handleLine (congrArg List.head? hpending) hq

end Slots

section Messages

variable {fw : Firmware} {c : Core}

/-- What each line keeps, with the lines still to come, whole messages keep. -/
theorem foldl_handleMessage_keeps {P : Core → List Text → Prop}
    (hline : ∀ c line rest, P c (line :: rest) → P (c.handleLine fw line) rest)
    (hcount : ∀ (c : Core) n rest, P c rest → P { c with received := n } rest)
    (messages : List Bytes) (rest : List Text) (h : P c (messages.flatMap lineTexts ++ rest)) :
    P (messages.foldl (Core.handleMessage fw) c) rest := by
  have hlines : ∀ (lines : List Text) (c : Core) (rest : List Text), P c (lines ++ rest) →
      P (lines.foldl (Core.handleLine fw) c) rest := by
    intro lines
    induction lines with
    | nil => exact fun c rest h => h
    | cons line lines ih => exact fun c rest h => ih _ _ (hline _ _ _ h)
  induction messages generalizing c with
  | nil => exact h
  | cons message messages ih =>
    rw [List.flatMap_cons, List.append_assoc] at h
    exact ih (hcount _ _ _ (hlines _ _ _ h))

end Messages

/-! ### The invariant -/

section Invariant

variable {fw : Firmware}

/-- The response `ls` answers the command of task `i`, which was written as command `k`: it is
the device's answer to that line. -/
def Answered (w : World fw) (i : ℕ) (command : Text) (k : ℕ) (ls : List Text) : Prop :=
  ∃ (j : ℕ) (r : Response fw), w.written[j]? = some ⟨.command i k, commandLine command⟩ ∧
    w.answers[j]? = some r ∧ ls = r.result

/-- How far the exchange of commands has got. -/
inductive Exchanging (w : World fw) : Prop
  /-- No command is under way. -/
  | quiet (htaken : w.answers.length = w.written.length) (hremaining : w.remaining = [])
      (hnobody : ∀ (i : ℕ) (b : Body) (k : ℕ), w.sys.tasks[i]? = some b → ¬b.awaits k)
  /-- The device has still to take the command of task `i`. -/
  | asked (i k : ℕ) (b : Body) (front : List Sent) (hb : w.sys.tasks[i]? = some b)
      (hawaits : b.awaits k)
      (hwritten : w.written = front ++ [⟨.command i k, commandLine b.command⟩])
      (htaken : w.answers.length = front.length) (hremaining : w.remaining = [])
      (hpending : w.core.pending = [k]) (hcmd : w.core.cmds[k]? = some {})
  /-- The device answers it. -/
  | served (i k : ℕ) (b : Body) (r : Response fw) (front : List Sent)
      (previous : List (Response fw)) (hb : w.sys.tasks[i]? = some b) (hawaits : b.awaits k)
      (hwritten : w.written = front ++ [⟨.command i k, commandLine b.command⟩])
      (hanswers : w.answers = previous ++ [r]) (htaken : previous.length = front.length)
      (hserving : Serving k r w.todo w.core w.incoming)

/-- The exchange is in order, and what was returned before is right. -/
structure Matched (w : World fw) : Prop where
  exclusive : Exclusive fw w.sys
  calm : ∀ (i : ℕ) (b : Body), w.sys.tasks[i]? = some b → b.isCancel = false
  aligned : w.Aligned
  commands : w.strays = []
  phase : Exchanging w
  returned : ∀ (i : ℕ) (b : Body) (k : ℕ) (ls : List Text), w.sys.tasks[i]? = some b →
    b.ping = some (true, .returned (some k) ls none) → Answered w i b.command k ls

/-! ### The steps -/

variable {w w' : World fw} {i k : ℕ} {b b' : Body} {command : Text} {ls : List Text}

/-- What is answered stays answered. -/
theorem Answered.mono (h : Answered w i command k ls) (hwritten : w.written <+: w'.written)
    (hanswers : w.answers <+: w'.answers) : Answered w' i command k ls := by
  obtain ⟨j, r, hj, hr, hls⟩ := h
  refine ⟨j, r, ?_, ?_, hls⟩
  · obtain ⟨tail, htail⟩ := hwritten
    rw [← htail, List.getElem?_append_left (List.getElem?_eq_some_iff.mp hj).1]
    exact hj
  · obtain ⟨tail, htail⟩ := hanswers
    rw [← htail, List.getElem?_append_left (List.getElem?_eq_some_iff.mp hr).1]
    exact hr

/-- An exchange past its lock has the lock. -/
theorem holding_of_ping {pc : PingPc} (hping : b.ping = some (true, pc)) (h : pc.holding = true) :
    b.holding = true := by
  have hany : (b.ping.any fun x => x.1 && x.2.holding) = true := by
    rw [hping]
    exact h
  cases b with
  | poll pc =>
    cases pc with
    | ping pc => cases hping
    | _ => cases hping
  | _ => exact hany

/-- A command that waits has the lock. -/
theorem holding_of_awaits (h : b.awaits k) : b.holding = true := by
  rcases h with h | h
  · exact holding_of_ping h rfl
  · exact holding_of_ping h rfl

/-- The two worlds agree on everything the exchange of commands is about. -/
structure Beside (w w' : World fw) : Prop where
  cmds : w'.core.cmds = w.core.cmds
  pending : w'.core.pending = w.core.pending
  lineBuffer : w'.core.lineBuffer = w.core.lineBuffer
  written : w'.written = w.written
  answers : w'.answers = w.answers
  todo : w'.todo = w.todo
  pipe : w'.pipe = w.pipe

theorem Beside.incoming (h : Beside w w') : w'.incoming = w.incoming := by
  unfold World.incoming
  rw [h.lineBuffer, h.pipe]

theorem Beside.remaining (h : Beside w w') : w'.remaining = w.remaining := by
  unfold World.remaining World.solicited
  rw [h.incoming, h.todo]

/-- **What happens beside the exchange leaves it where it was.** -/
theorem Exchanging.beside (h : Exchanging w) (hsame : Beside w w')
    (hstays : ∀ (i : ℕ) (b : Body) (k : ℕ), w.sys.tasks[i]? = some b → b.awaits k →
      ∃ b', w'.sys.tasks[i]? = some b' ∧ b'.awaits k ∧ b'.command = b.command)
    (hnew : ∀ (i : ℕ) (b' : Body) (k : ℕ), w'.sys.tasks[i]? = some b' → b'.awaits k →
      ∃ b, w.sys.tasks[i]? = some b ∧ b.awaits k) : Exchanging w' := by
  cases h with
  | quiet htaken hremaining hnobody =>
    refine .quiet ?_ (hsame.remaining.trans hremaining) ?_
    · rw [hsame.answers, hsame.written]
      exact htaken
    · intro i b' k hb' hawaits
      obtain ⟨b, hb, hwas⟩ := hnew i b' k hb' hawaits
      exact hnobody i b k hb hwas
  | asked i k b front hb hawaits hwritten htaken hremaining hpending hcmd =>
    obtain ⟨b', hb', hawaits', hcommand⟩ := hstays i b k hb hawaits
    refine .asked i k b' front hb' hawaits' ?_ ?_ (hsame.remaining.trans hremaining)
      (hsame.pending.trans hpending) ?_
    · rw [hsame.written, hcommand]
      exact hwritten
    · rw [hsame.answers]
      exact htaken
    · rw [hsame.cmds]
      exact hcmd
  | served i k b r front previous hb hawaits hwritten hanswers htaken hserving =>
    obtain ⟨b', hb', hawaits', hcommand⟩ := hstays i b k hb hawaits
    refine .served i k b' r front previous hb' hawaits' ?_ (hsame.answers.trans hanswers) htaken ?_
    · rw [hsame.written, hcommand]
      exact hwritten
    · obtain ⟨hpending, q, hq, hslot⟩ := hserving
      refine ⟨hsame.pending.trans hpending, q, ?_, ?_⟩
      · rw [hsame.cmds]
        exact hq
      · rw [hsame.incoming, hsame.todo]
        exact hslot

/-- The lines of an answer belong to a command. -/
theorem Response.solicited (r : Response fw) {line : Text} (h : line ∈ r.lines) :
    fw.unsolicited line = false := by
  unfold Firmware.unsolicited
  rcases List.mem_append.mp h with h | h
  · have hinforms := r.informs line h
    unfold Firmware.informs at hinforms
    simp only [Bool.and_eq_true, Bool.not_eq_true'] at hinforms
    obtain ⟨⟨⟨⟨hok, herror⟩, hreport⟩, halarm⟩, hbanner⟩ := hinforms
    rw [hok, herror, hreport, hbanner, halarm]
    rfl
  · rw [List.mem_singleton.mp h]
    have hack := r.acks
    rw [Bool.or_eq_true] at hack
    rcases hack with hack | hack <;> simp [hack]

theorem Slot.solicited {r : Response fw} {rest : List Text} {q : PendingCmd} (h : Slot r rest q)
    {line : Text} (hline : line ∈ rest) : fw.unsolicited line = false := by
  cases h with
  | answered => cases hline
  | waiting _ _ hrest hopen hlines =>
    apply r.solicited
    rw [← hlines]
    exact List.mem_append_right _ hline

/-- A step of the device, or of the transport, that leaves the session alone but for the bytes. -/
theorem Matched.of_device (h : Matched w) (htasks : w'.sys.tasks = w.sys.tasks)
    (hlock : w'.core.cmdLock = w.core.cmdLock) (hsent : w'.core.sent = w.core.sent)
    (hanswers : w.answers <+: w'.answers) (haligned : w'.Aligned) (hphase : Exchanging w') :
    Matched w' := by
  have hwritten : w'.written = w.written := by
    unfold World.written
    rw [hsent]
  refine ⟨⟨fun i b hb hheld => ?_, fun hfw i b hb => ?_⟩, fun i b hb => ?_, haligned, ?_, hphase,
    fun i b k ls hb hping => ?_⟩
  · rw [htasks] at hb
    exact hlock.trans (h.exclusive.lock i b hb hheld)
  · rw [htasks] at hb
    exact h.exclusive.polls hfw i b hb
  · rw [htasks] at hb
    exact h.calm i b hb
  · unfold World.strays
    rw [hwritten]
    exact h.commands
  · rw [htasks] at hb
    refine (h.returned i b k ls hb hping).mono ?_ hanswers
    rw [hwritten]

/-- The device takes the line that was written last. -/
theorem Matched.take (h : Matched w) {r : Response fw}
    (hs : World.step (.take r) w = some w') : Matched w' := by
  simp only [World.step] at hs
  split_ifs at hs with hready
  cases hs
  obtain ⟨htodo, hlt⟩ := hready
  refine h.of_device rfl rfl rfl (List.prefix_append _ _) ⟨h.aligned.whole, h.aligned.ends⟩ ?_
  cases h.phase with
  | quiet htaken => omega
  | served i k b r' front previous hb hawaits hwritten hanswers htaken =>
    rw [hanswers, hwritten, List.length_append, List.length_append, htaken] at hlt
    simp at hlt
  | asked i k b front hb hawaits hwritten htaken hremaining hpending hcmd =>
    refine .served i k b r front w.answers hb hawaits hwritten rfl htaken ⟨hpending, {}, hcmd, ?_⟩
    have hnothing : w.incoming.filter (fun line => !fw.unsolicited line) = [] :=
      (List.append_eq_nil_iff.mp hremaining).1
    show Slot r (w.incoming.filter (fun line => !fw.unsolicited line) ++ r.lines) {}
    rw [hnothing, List.nil_append]
    refine .waiting _ _ ?_ rfl rfl
    unfold Response.lines
    simp

/-- The device prints a line of its answer. -/
theorem Matched.print (h : Matched w) {m : Bytes} (hs : World.step (.print m) w = some w') :
    Matched w' := by
  simp only [World.step] at hs
  split at hs
  · cases hs
  · rename_i line todo htodo
    split_ifs at hs with hm
    cases hs
    obtain ⟨hline, hLF⟩ := hm
    have hquiet : w.remaining ≠ [] := by
      unfold World.remaining
      rw [htodo]
      simp
    cases h.phase with
    | quiet htaken hremaining => exact absurd hremaining hquiet
    | asked i k b front hb hawaits hwritten htaken hremaining => exact absurd hremaining hquiet
    | served i k b r front previous hb hawaits hwritten hanswers htaken hserving =>
      obtain ⟨hpending, q, hq, hslot⟩ := hserving
      have hsolicited : fw.unsolicited line = false := by
        apply hslot.solicited
        rw [htodo]
        exact List.mem_append_right _ List.mem_cons_self
      let w₁ : World fw := { w with todo := todo, pipe := w.pipe ++ (m ++ [LF]) }
      obtain ⟨hsame, haligned⟩ := remaining_print h.aligned hLF hline hsolicited htodo
        (rfl : w₁.core = w.core) rfl rfl
      refine h.of_device rfl rfl rfl (List.prefix_refl _) haligned ?_
      refine .served i k b r front previous hb hawaits hwritten hanswers htaken
        ⟨hpending, q, hq, ?_⟩
      unfold World.remaining World.solicited at hsame
      rw [hsame]
      exact hslot

/-- The device prints a report. -/
theorem Matched.report (h : Matched w) {m : Bytes} (hs : World.step (.report m) w = some w') :
    Matched w' := by
  simp only [World.step] at hs
  split_ifs at hs with hm
  cases hs
  let w₁ : World fw := { w with pipe := w.pipe ++ (m ++ [LF]) }
  obtain ⟨hsame, haligned⟩ := remaining_report h.aligned hm.2 hm.1 (rfl : w₁.core = w.core) rfl rfl
  refine h.of_device rfl rfl rfl (List.prefix_refl _) haligned ?_
  cases h.phase with
  | quiet htaken hremaining hnobody => exact .quiet htaken (hsame.trans hremaining) hnobody
  | asked i k b front hb hawaits hwritten htaken hremaining hpending hcmd =>
    exact .asked i k b front hb hawaits hwritten htaken (hsame.trans hremaining) hpending hcmd
  | served i k b r front previous hb hawaits hwritten hanswers htaken hserving =>
    obtain ⟨hpending, q, hq, hslot⟩ := hserving
    refine .served i k b r front previous hb hawaits hwritten hanswers htaken
      ⟨hpending, q, hq, ?_⟩
    unfold World.remaining World.solicited at hsame
    rw [hsame]
    exact hslot

/-- The command was written, and nothing of its answer is there. -/
def Waiting (fw : Firmware) (k : ℕ) (c : Core) (lines : List Text) : Prop :=
  c.pending = [k] ∧ c.cmds[k]? = some {} ∧ ∀ line ∈ lines, fw.unsolicited line = true

theorem Waiting.handleLine (hfw : fw.oneSlot = true) {c : Core} {line : Text} {lines : List Text}
    (h : Waiting fw k c (line :: lines)) : Waiting fw k (c.handleLine fw line) lines := by
  obtain ⟨hpending, hcmd, hlines⟩ := h
  refine ⟨(handleLine_frame line c).pending.trans hpending, ?_, fun l hl =>
    hlines l (List.mem_cons_of_mem line hl)⟩
  rw [handleLine_unsolicited hfw (hlines line List.mem_cons_self)]
  exact hcmd

theorem unsolicited_of_filter {lines : List Text}
    (h : lines.filter (fun line => !fw.unsolicited line) = []) :
    ∀ line ∈ lines, fw.unsolicited line = true := by
  intro line hline
  simpa using List.filter_eq_nil_iff.mp h line hline

/-- **The transport delivers a chunk.** -/
theorem Matched.deliver (hfw : fw.oneSlot = true) (h : Matched w) {n : ℕ}
    (hs : World.step (.deliver n) w = some w') : Matched w' := by
  obtain ⟨s, hrx, rfl⟩ := Option.map_eq_some_iff.mp hs
  simp only [Sys.step, Sys.outside] at hrx
  split_ifs at hrx
  cases hrx
  let w₁ : World fw := { w with
    sys := { w.sys with core := w.core.handleRx fw (w.pipe.take n) }, pipe := w.pipe.drop n }
  show Matched w₁
  have hframe := @handleRx_frame fw (w.pipe.take n) w.core
  have hcore := @handleRx_eq fw w.core h.aligned.whole (w.pipe.take n)
  obtain ⟨hincoming, haligned⟩ := @incoming_deliver fw w w₁ h.aligned n rfl rfl
  refine h.of_device rfl hframe.cmdLock hframe.sent (List.prefix_refl _) haligned ?_
  have hwritten : w₁.written = w.written := by
    unfold World.written
    exact congrArg (List.filter Sent.isLine) hframe.sent
  -- what is solicited only gets less
  have hless : w.remaining = [] → w₁.remaining = [] := by
    intro hnone
    unfold World.remaining World.solicited at hnone ⊢
    rw [hincoming, List.filter_append, List.append_assoc] at hnone
    exact (List.append_eq_nil_iff.mp hnone).2
  cases h.phase with
  | quiet htaken hremaining hnobody =>
    refine .quiet ?_ (hless hremaining) hnobody
    rw [hwritten]
    exact htaken
  | asked i k b front hb hawaits hwas htaken hremaining hpending hcmd =>
    -- the answer is not on its way yet: what comes is unsolicited, and the entry stays empty
    have hquiet : ∀ line ∈ w.incoming, fw.unsolicited line = true :=
      unsolicited_of_filter (List.append_eq_nil_iff.mp hremaining).1
    have hwait : Waiting fw k
        ((messagesOf w.core.lineBuffer (w.pipe.take n)).foldl (Core.handleMessage fw) w.core)
        w₁.incoming := by
      apply foldl_handleMessage_keeps (P := Waiting fw k)
      · exact fun c line rest hc => hc.handleLine hfw
      · exact fun c n rest hc => hc
      · refine ⟨hpending, hcmd, ?_⟩
        rw [hincoming] at hquiet
        exact hquiet
    refine .asked i k b front hb hawaits (hwritten.trans hwas) htaken (hless hremaining)
      (hframe.pending.trans hpending) ?_
    show (w.core.handleRx fw (w.pipe.take n)).cmds[k]? = some {}
    rw [hcore]
    exact hwait.2.1
  | served i k b r front previous hb hawaits hwas hanswers htaken hserving =>
    -- the lines of the answer go to the entry that waits, one by one
    have hserved : Serving k r w.todo
        ((messagesOf w.core.lineBuffer (w.pipe.take n)).foldl (Core.handleMessage fw) w.core)
        w₁.incoming := by
      apply foldl_handleMessage_keeps (P := Serving k r w.todo)
      · exact fun c line rest hc => hc.handleLine hfw
      · exact fun c n rest hc => hc
      · rw [hincoming] at hserving
        exact hserving
    refine .served i k b r front previous hb hawaits (hwritten.trans hwas) hanswers htaken ?_
    show Serving k r w.todo (w.core.handleRx fw (w.pipe.take n)) w₁.incoming
    rw [hcore]
    exact hserved

/-- **Whoever is under the lock without waiting finds the exchange quiet.** -/
theorem Matched.quiet_of_holding (h : Matched w) (hb : w.sys.tasks[i]? = some b)
    (hheld : b.holding = true) (hidle : ∀ k, ¬b.awaits k) :
    w.answers.length = w.written.length ∧ w.remaining = [] ∧
      ∀ (i : ℕ) (b : Body) (k : ℕ), w.sys.tasks[i]? = some b → ¬b.awaits k := by
  have hmine := h.exclusive.lock i b hb hheld
  have hsame : ∀ {j k : ℕ} {d : Body}, w.sys.tasks[j]? = some d → d.awaits k → False := by
    intro j k d hd hawaits
    have howner := h.exclusive.lock j d hd (holding_of_awaits hawaits)
    obtain rfl : i = j := Option.some.inj (hmine.symm.trans howner)
    cases hb.symm.trans hd
    exact hidle k hawaits
  cases h.phase with
  | quiet htaken hremaining hnobody => exact ⟨htaken, hremaining, hnobody⟩
  | asked j k d front hd hawaits => exact (hsame hd hawaits).elim
  | served j k d r front previous hd hawaits => exact (hsame hd hawaits).elim

/-- One task at a time is under the lock. -/
theorem Matched.unique (h : Matched w) {j : ℕ} {d : Body} (hb : w.sys.tasks[i]? = some b)
    (hheld : b.holding = true) (hd : w.sys.tasks[j]? = some d) (hdheld : d.holding = true) :
    i = j :=
  Option.some.inj ((h.exclusive.lock i b hb hheld).symm.trans (h.exclusive.lock j d hd hdheld))

/-- **A command that is finished while it waits has its whole answer**, and nothing of it is
still to come. -/
theorem Matched.result_of_finished (h : Matched w) (hb : w.sys.tasks[i]? = some b)
    (hawaits : b.awaits k) (hfinished : w.core.isFinished k = true) :
    w.answers.length = w.written.length ∧ w.remaining = [] ∧
      Answered w i b.command k (w.core.linesOf k) := by
  -- one exchange at a time
  have hsame : ∀ {j m : ℕ} {d : Body}, w.sys.tasks[j]? = some d → d.awaits m →
      j = i ∧ d = b ∧ m = k := by
    intro j m d hd hm
    obtain rfl := h.unique hd (holding_of_awaits hm) hb (holding_of_awaits hawaits)
    cases hb.symm.trans hd
    refine ⟨rfl, rfl, ?_⟩
    rcases hawaits with h1 | h1 <;> rcases hm with h2 | h2 <;> cases h1.symm.trans h2 <;> rfl
  have hq : ∀ {q : PendingCmd}, w.core.cmds[k]? = some q → q.finished = true := by
    intro q hcmd
    unfold Core.isFinished at hfinished
    rw [hcmd] at hfinished
    exact hfinished
  cases h.phase with
  | quiet htaken hremaining hnobody => exact absurd hawaits (hnobody i b k hb)
  | asked j m d front hd hm hwritten htaken hremaining hpending hcmd =>
    obtain ⟨rfl, rfl, rfl⟩ := hsame hd hm
    -- not answered yet: its entry is still empty, and cannot be finished
    cases hq hcmd
  | served j m d r front previous hd hm hwritten hanswers htaken hserving =>
    obtain ⟨rfl, rfl, rfl⟩ := hsame hd hm
    obtain ⟨-, q, hcmd, hslot⟩ := hserving
    generalize hrest : w.incoming.filter (fun line => !fw.unsolicited line) ++ w.todo = rest
      at hslot
    cases hslot with
    | waiting _ _ _ hopen _ =>
      rw [hq hcmd] at hopen
      cases hopen
    | answered _ _ hlines =>
      refine ⟨?_, hrest, front.length, r, ?_, ?_, ?_⟩
      · rw [hanswers, hwritten, List.length_append, List.length_append, htaken]
        rfl
      · rw [hwritten]
        exact List.getElem?_concat_length
      · rw [hanswers, ← htaken]
        exact List.getElem?_concat_length
      · unfold Core.linesOf
        rw [hcmd]
        exact hlines

/-- The world behind a step of a task. -/
def World.moved (w : World fw) (j : ℕ) (c : Core) (b : Body) (active : Option ℕ) : World fw :=
  { w with sys := ⟨c, w.sys.tasks.set j b, active⟩ }

section Task

variable {j : ℕ} {b₀ : Body} {c' : Core} {active : Option ℕ}

theorem moved_self (hb₀ : w.sys.tasks[j]? = some b₀) :
    (w.moved j c' b' active).sys.tasks[j]? = some b' :=
  List.getElem?_set_self (List.getElem?_eq_some_iff.mp hb₀).1

theorem moved_ne (hij : i ≠ j) :
    (w.moved j c' b' active).sys.tasks[i]? = w.sys.tasks[i]? :=
  List.getElem?_set_ne (Ne.symm hij)

/-- What holds of the tasks there were, and of the one that moved. -/
theorem forall_moved (hb₀ : w.sys.tasks[j]? = some b₀) {P : ℕ → Body → Prop}
    (hold : ∀ (i : ℕ) (b : Body), i ≠ j → w.sys.tasks[i]? = some b → P i b) (hmoved : P j b') :
    ∀ (i : ℕ) (b : Body), (w.moved j c' b' active).sys.tasks[i]? = some b → P i b := by
  intro i b hb
  by_cases hij : i = j
  · subst hij
    rw [moved_self hb₀] at hb
    cases hb
    exact hmoved
  · rw [moved_ne hij] at hb
    exact hold i b hij hb

/-- A task moves beside the exchange, or within it without a word. -/
theorem Exchanging.moved (h : Exchanging w) (hb₀ : w.sys.tasks[j]? = some b₀)
    (hsame : Beside w (w.moved j c' b' active))
    (hcommand : ∀ k, b₀.awaits k → b'.command = b₀.command)
    (hawaits : ∀ k, b₀.awaits k ↔ b'.awaits k) : Exchanging (w.moved j c' b' active) := by
  refine h.beside hsame ?_ ?_
  · intro i b k hb hk
    by_cases hij : i = j
    · subst hij
      cases hb₀.symm.trans hb
      exact ⟨b', moved_self hb₀, (hawaits k).mp hk, hcommand k hk⟩
    · exact ⟨b, by rw [moved_ne hij]; exact hb, hk, rfl⟩
  · intro i b k hb hk
    by_cases hij : i = j
    · subst hij
      rw [moved_self hb₀] at hb
      cases hb
      exact ⟨b₀, hb₀, (hawaits k).mpr hk⟩
    · rw [moved_ne hij] at hb
      exact ⟨b, hb, hk⟩

/-- Bytes that are no line. -/
theorem written_of_strays {w' : World fw} {e : Sent} (he : ∀ t cmd, e.origin ≠ .command t cmd)
    (hsent : w'.core.sent = w.core.sent ++ [e]) (hstrays : w'.strays = w.strays) :
    w'.written = w.written := by
  have hcommand : e.isCommand = false := by
    unfold Sent.isCommand
    cases horigin : e.origin with
    | command t cmd => exact absurd horigin (he t cmd)
    | _ => rfl
  unfold World.strays World.written at hstrays
  unfold World.written
  rw [hsent, List.filter_append] at hstrays ⊢
  by_cases hline : e.isLine = true
  · rw [List.filter_cons_of_pos hline, List.filter_append, List.filter_nil,
      List.filter_cons_of_pos (by simp [hcommand])] at hstrays
    have hlength := congrArg List.length hstrays
    simp at hlength
  · rw [List.filter_cons_of_neg hline, List.filter_nil, List.append_nil]

/-- The end of an exchange writes nothing, and touches no received bytes. -/
theorem endPing_wire (cmd : ℕ) (c : Core) :
    (c.endPing fw true cmd).sent = c.sent ∧ (c.endPing fw true cmd).lineBuffer = c.lineBuffer := by
  unfold Core.endPing Core.dropPending
  dsimp only
  split_ifs <;> exact ⟨rfl, rfl⟩

theorem isLine_commandLine (o : Origin) (command : Text) :
    Sent.isLine ⟨o, commandLine command⟩ = true := by
  unfold Sent.isLine commandLine
  simp

theorem written_extends (hsent : c'.sent = w.core.sent) :
    w.written <+: (w.moved j c' b' active).written := by
  have hwritten : (w.moved j c' b' active).written = w.written :=
    congrArg (List.filter Sent.isLine) hsent
  rw [hwritten]

/-- The exchange stays quiet, whatever becomes of the commands. -/
theorem Exchanging.of_quiet (hb₀ : w.sys.tasks[j]? = some b₀)
    (htaken : w.answers.length = w.written.length) (hremaining : w.remaining = [])
    (hnobody : ∀ (i : ℕ) (b : Body) (k : ℕ), i ≠ j → w.sys.tasks[i]? = some b → ¬b.awaits k)
    (hsent : c'.sent = w.core.sent) (hbuffer : c'.lineBuffer = w.core.lineBuffer)
    (hidle : ∀ k, ¬b'.awaits k) : Exchanging (w.moved j c' b' active) := by
  have hwritten : (w.moved j c' b' active).written = w.written :=
    congrArg (List.filter Sent.isLine) hsent
  refine .quiet ?_ ?_ ?_
  · rw [hwritten]
    exact htaken
  · have hincoming : (w.moved j c' b' active).incoming = w.incoming := by
      show (messagesOf c'.lineBuffer w.pipe).flatMap lineTexts = _
      rw [hbuffer]
      rfl
    unfold World.remaining World.solicited
    rw [hincoming]
    exact hremaining
  · intro i b k
    revert i b
    exact forall_moved hb₀ (fun i b hij hb => hnobody i b k hij hb) (hidle k)

/-- The parts of the invariant that a task keeps whatever it does. -/
theorem Matched.of_moved (h : Matched w) (hb₀ : w.sys.tasks[j]? = some b₀)
    (hexclusive : Exclusive fw (w.moved j c' b' active).sys) (hcancel : b'.isCancel = false)
    (hbuffer : c'.lineBuffer = w.core.lineBuffer)
    (hstrays : (w.moved j c' b' active).strays = w.strays)
    (hwritten : w.written <+: (w.moved j c' b' active).written)
    (hphase : Exchanging (w.moved j c' b' active))
    (hreturned : ∀ k ls, b'.ping = some (true, .returned (some k) ls none) →
      Answered (w.moved j c' b' active) j b'.command k ls) :
    Matched (w.moved j c' b' active) := by
  refine ⟨hexclusive, ?_, ⟨?_, ?_⟩, hstrays.trans h.commands, hphase, ?_⟩
  · exact forall_moved hb₀ (fun i b _ hb => h.calm i b hb) hcancel
  · show LF ∉ c'.lineBuffer
    rw [hbuffer]
    exact h.aligned.whole
  · show unfinished c'.lineBuffer w.pipe = []
    rw [hbuffer]
    exact h.aligned.ends
  · intro i b k ls
    revert i b
    intro i b hb
    refine forall_moved (P := fun i b => b.ping = some (true, .returned (some k) ls none) →
      Answered (w.moved j c' b' active) i b.command k ls) hb₀ ?_ (hreturned k ls) i b hb
    intro i b _ hb hping
    exact (h.returned i b k ls hb hping).mono hwritten (List.prefix_refl _)

theorem Beside.of_exchange (hexchange : c'.exchange = w.core.exchange) :
    Beside w (w.moved j c' b' active) := by
  refine ⟨(congrArg Exchange.cmds hexchange :), (congrArg Exchange.pending hexchange :),
    (congrArg Exchange.lineBuffer hexchange :), ?_, rfl, rfl, rfl⟩
  unfold World.written
  exact congrArg (List.filter Sent.isLine) (congrArg Exchange.sent hexchange :)

/-- A step without a word, between two points at which nothing is awaited. -/
theorem Matched.silent (h : Matched w) (hb₀ : w.sys.tasks[j]? = some b₀)
    (hexclusive : Exclusive fw (w.moved j c' b' active).sys) (hcancel : b'.isCancel = false)
    (hstrays : (w.moved j c' b' active).strays = w.strays)
    (hsame : Beside w (w.moved j c' b' active)) (hidle : ∀ k, ¬b₀.awaits k)
    (hidle' : ∀ k, ¬b'.awaits k)
    (hreturned : ∀ k ls, b'.ping ≠ some (true, .returned (some k) ls none)) :
    Matched (w.moved j c' b' active) := by
  refine h.of_moved hb₀ hexclusive hcancel hsame.lineBuffer hstrays ?_ ?_
    fun k ls hret => absurd hret (hreturned k ls)
  · rw [hsame.written]
  · exact h.phase.moved hb₀ hsame (fun k hk => absurd hk (hidle k))
      fun k => ⟨fun hk => absurd hk (hidle k), fun hk => absurd hk (hidle' k)⟩

/-- What a task does outside its exchanges. -/
theorem Matched.outside (h : Matched w) (hb₀ : w.sys.tasks[j]? = some b₀)
    (hexclusive : Exclusive fw (w.moved j c' b' active).sys) (hcancel : b'.isCancel = false)
    (hstrays : (w.moved j c' b' active).strays = w.strays)
    (hover : ∀ serialize pc, b₀.ping = some (serialize, pc) → pc.isReturned = true)
    (hb' : ∀ serialize pc, b'.ping = some (serialize, pc) →
      pc = .enter ∨ serialize = false ∧ pc = .locked)
    (hexchange : c'.exchange = w.core.exchange ∨ ∃ e : Sent,
      (∀ t cmd, e.origin ≠ .command t cmd) ∧
        c'.exchange = { w.core with sent := w.core.sent ++ [e] }.exchange) :
    Matched (w.moved j c' b' active) := by
  have hsame : Beside w (w.moved j c' b' active) := by
    rcases hexchange with hexchange | ⟨e, he, hexchange⟩
    · exact .of_exchange hexchange
    · exact ⟨(congrArg Exchange.cmds hexchange :), (congrArg Exchange.pending hexchange :),
        (congrArg Exchange.lineBuffer hexchange :),
        written_of_strays he (congrArg Exchange.sent hexchange :) hstrays, rfl, rfl, rfl⟩
  refine h.silent hb₀ hexclusive hcancel hstrays hsame ?_ ?_ fun k ls hping => ?_
  · rintro k (hk | hk)
    · cases hover _ _ hk
    · cases hover _ _ hk
  · rintro k (hk | hk)
    · rcases hb' _ _ hk with h1 | ⟨h1, -⟩ <;> cases h1
    · rcases hb' _ _ hk with h1 | ⟨h1, -⟩ <;> cases h1
  · rcases hb' _ _ hping with h1 | ⟨h1, -⟩ <;> cases h1

/-- The line of a command is written: the device has it to answer. -/
theorem Matched.write (hfw : fw.oneSlot = true) (h : Matched w) {err : Option String}
    (hb₀ : w.sys.tasks[j]? = some b₀) (hb : b₀.ping = some (true, .locked))
    (hb' : b'.ping = some (true, .writing w.core.cmds.length err))
    (hcommand : b'.command = b₀.command) (hcancel : b'.isCancel = false)
    (hc : c' = (w.core.enqueue fw).write (.command j w.core.cmds.length)
      (commandLine b₀.command) err)
    (hexclusive : Exclusive fw (w.moved j c' b' active).sys)
    (hstrays : (w.moved j c' b' active).strays = w.strays) :
    Matched (w.moved j c' b' active) := by
  subst hc
  have hidle : ∀ k, ¬b₀.awaits k := not_awaits hb (by simp)
  obtain ⟨htaken, hremaining, hnobody⟩ := h.quiet_of_holding hb₀ (holding_of_ping hb rfl) hidle
  have hreturned : ∀ k ls, b'.ping ≠ some (true, .returned (some k) ls none) := by
    intro k ls hret
    rw [hb'] at hret
    cases hret
  cases err with
  | some e =>
    -- nothing has gone out, and the task will return an error
    have hsent : w.core.sent ++ [] = w.core.sent := List.append_nil _
    exact h.of_moved hb₀ hexclusive hcancel rfl hstrays (written_extends hsent)
      (.of_quiet hb₀ htaken hremaining (fun i b k _ => hnobody i b k) hsent rfl
        (not_awaits hb' (by simp))) fun k ls hret => absurd hret (hreturned k ls)
  | none =>
    let e : Sent := ⟨.command j w.core.cmds.length, commandLine b₀.command⟩
    have hwritten : (w.core.sent ++ [e]).filter Sent.isLine = w.written ++ [e] := by
      rw [List.filter_append, List.filter_cons_of_pos (isLine_commandLine _ _), List.filter_nil]
      rfl
    refine h.of_moved hb₀ hexclusive hcancel rfl hstrays ⟨_, hwritten.symm⟩ ?_
      fun k ls hret => absurd hret (hreturned k ls)
    refine .asked j w.core.cmds.length b' w.written (moved_self hb₀) (.inl hb') ?_ htaken
      hremaining ?_ ?_
    · rw [hcommand]
      exact hwritten
    · show (if fw.oneSlot then _ else _) = _
      rw [if_pos hfw]
    · exact List.getElem?_concat_length

/-- The exchange is over: with the response, if it was finished, and else with an error. -/
theorem Matched.close (h : Matched w) {cmd : ℕ} (hb₀ : w.sys.tasks[j]? = some b₀)
    (hheld : b₀.holding = true) (hcancel : b'.isCancel = false)
    (hexclusive : Exclusive fw (w.moved j (w.core.endPing fw true cmd) b' active).sys)
    (hstrays : (w.moved j (w.core.endPing fw true cmd) b' active).strays = w.strays)
    (htaken : w.answers.length = w.written.length) (hremaining : w.remaining = [])
    (hidle' : ∀ k, ¬b'.awaits k)
    (hreturned : ∀ k ls, b'.ping = some (true, .returned (some k) ls none) →
      Answered w j b'.command k ls) :
    Matched (w.moved j (w.core.endPing fw true cmd) b' active) := by
  obtain ⟨hsent, hbuffer⟩ := @endPing_wire fw cmd w.core
  have hnobody : ∀ (i : ℕ) (b : Body) (k : ℕ), i ≠ j → w.sys.tasks[i]? = some b → ¬b.awaits k :=
    fun i b k hij hd hk => hij (h.unique hd (holding_of_awaits hk) hb₀ hheld)
  have hprefix : w.written <+: (w.moved j (w.core.endPing fw true cmd) b' active).written :=
    written_extends hsent
  exact h.of_moved hb₀ hexclusive hcancel hbuffer hstrays hprefix
    (.of_quiet hb₀ htaken hremaining hnobody hsent hbuffer hidle')
    fun k ls hret => (hreturned k ls hret).mono hprefix (List.prefix_refl _)

/-- A step within an exchange. -/
theorem Matched.ping (hfw : fw.oneSlot = true) (h : Matched w) {ch : Choice} {pc pc' : PingPc}
    (hb₀ : w.sys.tasks[j]? = some b₀) (hb : b₀.ping = some (true, pc))
    (hb' : b'.ping = some (true, pc')) (hcommand : b'.command = b₀.command)
    (hcancel : b'.isCancel = false)
    (hping : advancePing fw j true b₀.command ch w.core pc = some (c', pc'))
    (hexclusive : Exclusive fw (w.moved j c' b' active).sys) (htime : ch.timedOut = false)
    (hstrays : (w.moved j c' b' active).strays = w.strays) :
    Matched (w.moved j c' b' active) := by
  -- a step that says nothing, between two points at which nothing is awaited
  have hsilent : (∀ k, pc ≠ .writing k none ∧ pc ≠ .wait k) →
      (∀ k, pc' ≠ .writing k none ∧ pc' ≠ .wait k) →
      (∀ k ls, pc' ≠ .returned (some k) ls none) → c'.exchange = w.core.exchange →
      Matched (w.moved j c' b' active) := by
    intro hpc hpc' hreturned hexchange
    refine h.silent hb₀ hexclusive hcancel hstrays (.of_exchange hexchange) (not_awaits hb hpc)
      (not_awaits hb' hpc') fun k ls hret => ?_
    rw [hb'] at hret
    cases hret
    exact hreturned k ls rfl
  cases advancePing_step hping with
  | enter _ _ hpc hpc' =>
    refine hsilent (fun k => ⟨?_, ?_⟩) (fun k => ⟨?_, ?_⟩) (fun k ls => ?_) rfl
    · rintro rfl
      cases hpc
    · rintro rfl
      cases hpc
    · rintro rfl
      cases hpc'
    · rintro rfl
      cases hpc'
    · rintro rfl
      cases hpc'
  | refused _ e hpc =>
    refine hsilent (fun k => ⟨?_, ?_⟩) (fun k => ⟨by simp, by simp⟩) (by simp) rfl
    · rintro rfl
      cases hpc
    · rintro rfl
      cases hpc
  | lock hfree => exact hsilent (by simp) (by simp) (by simp) rfl
  | closed e => exact hsilent (by simp) (by simp) (by simp) rfl
  | bare hserialize => cases hserialize
  | write err => exact h.write hfw hb₀ hb hb' hcommand hcancel rfl hexclusive hstrays
  | written cmd =>
    refine h.of_moved hb₀ hexclusive hcancel rfl hstrays (List.prefix_refl _) ?_ ?_
    · refine h.phase.moved hb₀ ⟨rfl, rfl, rfl, rfl, rfl, rfl, rfl⟩ (fun _ _ => hcommand)
        fun k => ?_
      unfold Body.awaits
      rw [hb, hb']
      simp
    · intro k ls hret
      rw [hb'] at hret
      cases hret
  | failed cmd err e =>
    -- the write has failed: the line never reached the device
    obtain ⟨htaken, hremaining, -⟩ :=
      h.quiet_of_holding hb₀ (holding_of_ping hb rfl) (not_awaits hb (by simp))
    refine h.close hb₀ (holding_of_ping hb rfl) hcancel hexclusive hstrays htaken hremaining
      (not_awaits hb' (by simp)) fun k ls hret => ?_
    rw [hb'] at hret
    cases hret
  | answered cmd hfinished =>
    obtain ⟨htaken, hremaining, hreturned⟩ := h.result_of_finished hb₀ (.inr hb) hfinished
    refine h.close hb₀ (holding_of_ping hb rfl) hcancel hexclusive hstrays htaken hremaining
      (not_awaits hb' (by simp)) fun k ls hret => ?_
    rw [hb'] at hret
    cases hret
    rw [hcommand]
    exact hreturned
  | expired cmd hfinished =>
    simp only [advancePing, hfinished, htime, Bool.false_eq_true, if_false] at hping
    cases hping

/-- **A step of a task.** -/
theorem Matched.task (hfw : fw.oneSlot = true) (h : Matched w) {ch : Choice}
    (hb₀ : w.sys.tasks[j]? = some b₀) (hadv : advance fw j ch w.core b₀ = some (c', b'))
    (hexclusive : Exclusive fw (w.moved j c' b' active).sys) (htime : ch.timedOut = false)
    (hstrays : (w.moved j c' b' active).strays = w.strays) :
    Matched (w.moved j c' b' active) := by
  have hcancel : b'.isCancel = false := (advance_isCancel hadv).trans (h.calm j b₀ hb₀)
  cases advance_move hadv (h.calm j b₀ hb₀) with
  | aside hover hb' hexchange =>
    exact h.outside hb₀ hexclusive hcancel hstrays hover hb' hexchange
  | ping serialize pc pc' hb hb' hcommand hping =>
    -- the poll loop, which would not serialize, is not that of a session with one slot
    have hserialize : serialize = true := by
      have hpoll := h.exclusive.polls hfw j b₀ hb₀
      unfold Body.isPollPing at hpoll
      rw [hb] at hpoll
      simpa using hpoll
    subst hserialize
    exact h.ping hfw hb₀ hb hb' hcommand hcancel hping hexclusive htime hstrays

end Task

/-- A body that is in no exchange. -/
structure Body.Outside (b : Body) : Prop where
  calm : b.isCancel = false
  awaits : ∀ k, ¬b.awaits k
  returned : ∀ k ls, b.ping ≠ some (true, .returned (some k) ls none)

theorem Body.Outside.of_none (hcancel : b.isCancel = false) (hping : b.ping = none) :
    b.Outside := by
  refine ⟨hcancel, not_awaits_of_none hping, fun k ls hret => ?_⟩
  rw [hping] at hret
  cases hret

/-- **What is no step of a task**: a call, the announcement, the link going up, or the drop of a
poll loop. -/
theorem Matched.aside (h : Matched w) {s : Sys} (hexclusive : Exclusive fw s)
    (hcmds : s.core.cmds = w.core.cmds) (hpending : s.core.pending = w.core.pending)
    (hbuffer : s.core.lineBuffer = w.core.lineBuffer) (hsent : s.core.sent = w.core.sent)
    (hold : ∀ (i : ℕ) (b : Body), w.sys.tasks[i]? = some b → s.tasks[i]? = some b ∨ b.Outside)
    (hnew : ∀ (i : ℕ) (b : Body), s.tasks[i]? = some b → w.sys.tasks[i]? = some b ∨ b.Outside) :
    Matched { w with sys := s } := by
  have hwritten : ({ w with sys := s } : World fw).written = w.written :=
    congrArg (List.filter Sent.isLine) hsent
  have hsame : Beside w { w with sys := s } :=
    ⟨hcmds, hpending, hbuffer, hwritten, rfl, rfl, rfl⟩
  refine ⟨hexclusive, fun i b hb => ?_, ⟨?_, ?_⟩, ?_, ?_, fun i b k ls hb hret => ?_⟩
  · rcases hnew i b hb with hb | hb
    · exact h.calm i b hb
    · exact hb.calm
  · show LF ∉ s.core.lineBuffer
    rw [hbuffer]
    exact h.aligned.whole
  · show unfinished s.core.lineBuffer w.pipe = []
    rw [hbuffer]
    exact h.aligned.ends
  · unfold World.strays
    rw [hwritten]
    exact h.commands
  · refine h.phase.beside hsame ?_ ?_
    · intro i b k hb hk
      rcases hold i b hb with hb' | hb'
      · exact ⟨b, hb', hk, rfl⟩
      · exact absurd hk (hb'.awaits k)
    · intro i b k hb hk
      rcases hnew i b hb with hb' | hb'
      · exact ⟨b, hb', hk⟩
      · exact absurd hk (hb'.awaits k)
  · rcases hnew i b hb with hb' | hb'
    · refine (h.returned i b k ls hb' hret).mono ?_ (List.prefix_refl _)
      rw [hwritten]
    · exact absurd hret (hb'.returned k ls)

/-- The task of a call begins outside every exchange. -/
theorem outside_body {op : Call} (h : op.body fw = some b) (hop : ∀ em, op ≠ .cancel em) :
    b.Outside := by
  cases op with
  | cancel em => exact absurd rfl (hop em)
  | runRaw lines => cases fw <;> cases h <;> exact .of_none rfl rfl
  | setHold hold =>
    simp only [Call.body] at h
    split_ifs at h
    cases h
    exact .of_none rfl rfl
  | _ =>
    cases h
    exact .of_none rfl rfl

/-- A poll loop is in no exchange under the lock. -/
theorem outside_poll (pc : PollPc) : (Body.poll pc).Outside := by
  cases pc with
  | ping pc =>
    refine ⟨rfl, fun k hk => ?_, fun k ls hk => ?_⟩
    · rcases hk with hk | hk <;> cases hk
    · cases hk
  | _ => exact .of_none rfl rfl

/-- **The invariant is kept by every orderly step.** -/
theorem Matched.step (hfw : fw.oneSlot = true) (h : Matched w) {l : WorldLabel fw}
    (hs : World.step l w = some w') (hok : Orderly w l w' = true) : Matched w' := by
  unfold Orderly at hok
  rw [Bool.and_eq_true, Bool.and_eq_true, decide_eq_true_eq] at hok
  obtain ⟨⟨horderly, hstrays⟩, -⟩ := hok
  cases l with
  | take r => exact h.take hs
  | print m => exact h.print hs
  | report m => exact h.report hs
  | deliver n => exact h.deliver hfw hs
  | host l =>
    by_cases hl : ∃ i ch, l = .task i ch
    · obtain ⟨j, ch, rfl⟩ := hl
      obtain ⟨s, hstep, rfl⟩ := Option.map_eq_some_iff.mp hs
      have hexclusive := h.exclusive.step hstep
      obtain ⟨b₀, c', b', hb₀, -, hadv, rfl⟩ := Sys.step_task hstep
      exact h.task hfw hb₀ hadv hexclusive (by simpa [WorldLabel.orderly] using horderly) hstrays
    -- received bytes come from the device here, never on their own
    · have hrx : ∀ data, l ≠ .rx data := by
        rintro data rfl
        cases hs
      have hmap : (Sys.step fw l w.sys).map (fun s => { w with sys := s }) = some w' := by
        cases l with
        | rx data => exact absurd rfl (hrx data)
        | _ => exact hs
      obtain ⟨s, hstep, rfl⟩ := Option.map_eq_some_iff.mp hmap
      obtain ⟨-, haside⟩ := Sys.step_other hstep fun i ch hi => hl ⟨i, ch, hi⟩
      have hexclusive := h.exclusive.step hstep
      -- a step beside the tasks that leaves the exchange alone
      have hkeep : ∀ {c : Core}, s.core = c → s.tasks = w.sys.tasks → c.cmds = w.core.cmds →
          c.pending = w.core.pending → c.lineBuffer = w.core.lineBuffer → c.sent = w.core.sent →
          Matched { w with sys := s } := by
        intro c hcore htasks hcmds hpending hbuffer hsent
        refine h.aside hexclusive (by rw [hcore]; exact hcmds) (by rw [hcore]; exact hpending)
          (by rw [hcore]; exact hbuffer) (by rw [hcore]; exact hsent) ?_ ?_
        · rw [htasks]
          exact fun i b hb => .inl hb
        · rw [htasks]
          exact fun i b hb => .inl hb
      cases haside with
      | rx data hlabel => exact absurd hlabel (hrx data)
      | cleanup hlabel =>
        rw [hlabel] at horderly
        cases horderly
      | link up hlabel hcore htasks =>
        rw [hlabel] at horderly
        cases up with
        | false => cases horderly
        | true => exact hkeep hcore htasks rfl rfl rfl rfl
      | announce hlabel hcore htasks => exact hkeep hcore htasks rfl rfl rfl rfl
      | call op b hlabel hb hcore htasks =>
        -- a new task has not entered an exchange yet
        have hop : ∀ em, op ≠ .cancel em := by
          rintro em rfl
          rw [hlabel] at horderly
          cases horderly
        refine h.aside hexclusive (by rw [hcore]; rfl) (by rw [hcore]; rfl) (by rw [hcore]; rfl)
          (by rw [hcore]; rfl) ?_ ?_
        · intro i d hd
          rw [htasks, List.getElem?_append_left (List.getElem?_eq_some_iff.mp hd).1]
          exact .inl hd
        · intro i d hd
          rw [htasks, List.getElem?_append] at hd
          split_ifs at hd
          · exact .inl hd
          · rw [List.mem_singleton.mp (List.mem_of_getElem? hd)]
            exact .inr (outside_body hb hop)
      | drop i pc hlabel hi hcore htasks =>
        have hlt : i < w.sys.tasks.length := (List.getElem?_eq_some_iff.mp hi).1
        refine h.aside hexclusive ?_ ?_ ?_ ?_ ?_ ?_
        · rw [hcore]
          split_ifs <;> rfl
        · rw [hcore]
          split_ifs <;> rfl
        · rw [hcore]
          split_ifs <;> rfl
        · rw [hcore]
          split_ifs <;> rfl
        · intro k d hd
          by_cases hik : i = k
          -- the dropped task was a poll loop, which was in no exchange under the lock
          · subst hik
            cases hi.symm.trans hd
            exact .inr (outside_poll pc)
          · rw [htasks, List.getElem?_set_ne hik]
            exact .inl hd
        · intro k d hd
          rw [htasks] at hd
          by_cases hik : i = k
          · subst hik
            rw [List.getElem?_set_self hlt] at hd
            cases hd
            exact .inr (outside_poll _)
          · rw [List.getElem?_set_ne hik] at hd
            exact .inl hd

/-! ### The runs -/

/-- A new session, to whose device nothing was said. -/
structure World.Fresh (w : World fw) : Prop where
  tasks : w.sys.tasks = []
  sent : w.core.sent = []
  lineBuffer : w.core.lineBuffer = []
  answers : w.answers = []
  todo : w.todo = []
  pipe : w.pipe = []

theorem World.Fresh.matched (h : w.Fresh) : Matched w := by
  have hnone : ∀ (i : ℕ) (b : Body), w.sys.tasks[i]? ≠ some b := by
    intro i b hb
    rw [h.tasks] at hb
    cases hb
  have hwritten : w.written = [] := by
    unfold World.written
    rw [h.sent]
    rfl
  have hincoming : w.incoming = [] := by
    unfold World.incoming
    rw [h.lineBuffer, h.pipe]
    rfl
  refine ⟨⟨fun i b hb => absurd hb (hnone i b), fun _ i b hb => absurd hb (hnone i b)⟩,
    fun i b hb => absurd hb (hnone i b), ⟨?_, ?_⟩, ?_, .quiet ?_ ?_ ?_,
    fun i b k ls hb => absurd hb (hnone i b)⟩
  · unfold Core.WholeLines
    rw [h.lineBuffer]
    exact List.not_mem_nil
  · rw [h.lineBuffer, h.pipe]
    rfl
  · unfold World.strays
    rw [hwritten]
    rfl
  · rw [h.answers, hwritten]
    rfl
  · unfold World.remaining World.solicited
    rw [hincoming, h.todo]
    rfl
  · exact fun i b k hb => absurd hb (hnone i b)

theorem matched_of_run (hfw : fw.oneSlot = true) {w₀ : World fw} (h0 : w₀.Fresh)
    (hr : Run World.step (fun w l w' => Orderly w l w' = true) w₀ w) : Matched w :=
  hr.invariant (fun _ _ _ h hs hok => h.step hfw hs hok) h0.matched

/-- **A command returns the answer to that command.**  A device takes the lines that
`SimpleCore` or `SmoothieCore` writes, answers each, with any informational lines and one `ok` or
`error:`, at any time, and reports its status in between; the bytes are delivered in any
chunks.  In every run in which no wait expires, no command is cancelled, no line is written but
by commands, and the link stays up, whatever jobs, commands, polls and feed holds run side by
side: when the exchange of a task returns the lines `ls`, then its own command is the line `j`
written to the device, for some `j`, and `ls` is the answer of the device to that line, with all
its informational lines in order, and nothing of another answer. -/
theorem command_gets_its_response (hfw : fw.oneSlot = true) {w₀ : World fw} (h0 : w₀.Fresh)
    (hr : Run World.step (fun w l w' => Orderly w l w' = true) w₀ w)
    (hb : w.sys.tasks[i]? = some b) (hret : b.ping = some (true, .returned (some k) ls none)) :
    ∃ (j : ℕ) (r : Response fw), w.written[j]? = some ⟨.command i k, commandLine b.command⟩ ∧
      w.answers[j]? = some r ∧ ls = r.result :=
  (matched_of_run hfw h0 hr).returned i b k ls hb hret

end Invariant

/-- A line of information, and an `ok`. -/
def informed : Response .simple where
  infos := ["[PRB:1,2,3:1]".toList]
  ack := "ok".toList
  informs := List.all_eq_true.mp (by decide)
  acks := rfl

/-- A session with its device. -/
def freshWorld : World .simple := { sys := ⟨{}, [], none⟩ }

/-- A command is written and answered while a status report comes in between. -/
def answeredCommand : List (WorldLabel .simple) :=
  .host (.call (.execute "G38.2 Z-5".toList)) :: (turns 0 6).map .host ++
    [.take informed, .print (ascii "[PRB:1,2,3:1]\r"), .deliver 5, .report (ascii "<Idle>\r"),
      .print (ascii "ok\r"), .deliver 30] ++ (turns 0 1).map .host

/-- The command has the answer to it. -/
theorem command_gets_its_response_probe :
    let w := reach World.step answeredCommand freshWorld
    ∃ (j : ℕ) (r : Response .simple), w.written[j]? = some ⟨.command 0 0, "G38.2 Z-5\n".toList⟩ ∧
      w.answers[j]? = some r ∧ ["[PRB:1,2,3:1]".toList] = r.result :=
  @command_gets_its_response .simple _ 0 0
    (.execute "G38.2 Z-5".toList (.ping (.returned (some 0) ["[PRB:1,2,3:1]".toList] none)))
    ["[PRB:1,2,3:1]".toList] rfl freshWorld ⟨rfl, rfl, rfl, rfl, rfl, rfl⟩
    (run_reach_guarded (by decide)) (by decide) rfl

end Raydriver.PingPong
