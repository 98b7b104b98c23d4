import Raydriver.Analyzer.PyText
import Raydriver.Grbl.Comments
import Raydriver.Grbl.Reports

/-!
# The command line

`raydriver run` counts the lines of a file that are no comment, and hands the file to the
session with as many operations.  The session numbers all its lines, the empty ones too, and
splits the text by another rule.  The job has succeeded when the progress has come up to the
count.

## Main definitions

* `cliLines`, `cliJob` — the lines the command counts, and the job it hands over.
* `Job.sends` — the lines the session sends, as its loop numbers them.
* `acknowledged` — the session behind an `ok` for each of them.
* `RunView`, `cmdRun` — the progress display, and the exit code.

## Main results

* `acked_eq` — the display ends behind the highest operation sent.
* `cmdRun_recognises_iff` — when a successful job is recognised.
* `strip_is_one_scan` — the command and the session take comments out by the same scan, and find
  the same lines empty.
-/

namespace Raydriver

open HighWater

/-! ### The job -/

/-- `[raw for raw in text.splitlines() if strip_gcode_comments(raw)]`. -/
def cliLines (text : Text) : List Text :=
  (splitlines text).filter fun raw => !(stripGcodeComments raw).isEmpty

/-- The job of `session.run(text, op_map, …)` with `op_map = {i: i for i in range(len(lines))}`. -/
def cliJob (text : Text) : Job where
  lines := lines text
  opMap := some ((List.range (cliLines text).length).map fun i : ℕ => (i, (i : ℤ)))

/-- What the loop of `stream_gcode_inner` sends from the line numbered `idx` on. -/
def Job.sendsFrom (job : Job) : ℕ → List Text → List Send
  | _, [] => []
  | idx, rawLine :: rest =>
    if (stripGcodeComments rawLine).isEmpty then job.sendsFrom (idx + 1) rest
    else ⟨idx, stripGcodeComments rawLine, job.opIndex idx, rest⟩ :: job.sendsFrom (idx + 1) rest

/-- The lines of a job that is sent to its end. -/
def Job.sends (job : Job) : List Send := job.sendsFrom 0 job.lines

/-- The streaming task sends these lines: the head of its loop skips a line, or goes on to send
the next of them. -/
theorem loopTop_sendsFrom {t : ℕ} {job : Job} {ch : Choice} {c : Core} {idx : ℕ}
    {rawLine : Text} {rest : List Text}
    (hgo : (c.isCancelled || c.jobException.isSome || c.isAlarm) = false) :
    (advanceStream t job ch c (.loopTop idx (rawLine :: rest)) = some (c, .loopTop (idx + 1) rest) ∧
        job.sendsFrom idx (rawLine :: rest) = job.sendsFrom (idx + 1) rest) ∨
      ∃ s, advanceStream t job ch c (.loopTop idx (rawLine :: rest)) = some (c, .lockWait s) ∧
        job.sendsFrom idx (rawLine :: rest) = s :: job.sendsFrom (s.lineIdx + 1) s.rest := by
  simp only [advanceStream, hgo, Bool.false_eq_true, if_false, Job.sendsFrom]
  by_cases hempty : (stripGcodeComments rawLine).isEmpty = true
  · rw [if_pos hempty, if_pos hempty]
    exact .inl ⟨rfl, rfl⟩
  · rw [if_neg hempty, if_neg hempty]
    exact .inr ⟨_, rfl, rfl⟩

/-- The entry of the flow control for a line that is sent. -/
def Send.entry (s : Send) : PendingCommand := ⟨utf8Len s.payload, s.opIndex, trimEnd s.payload⟩

/-- A session that starts the job, sends all its lines and hears an `ok` for each. -/
def acknowledged (job : Job) (c : Core) : Core :=
  (job.sends.map fun s => (⟨.ok, "ok".toList, some s.entry⟩ : GrblResponse)).foldl
    Core.handleResponse c.startJob

/-! ### The display -/

/-- What the command line shows of a run. -/
structure RunView where
  total : ℕ
  acked : ℤ := 0
  deriving DecidableEq, Repr

/-- A line of the progress display. -/
def RunView.progress (v : RunView) (lineIndex : ℤ) : RunView :=
  { v with acked := max v.acked (lineIndex + 1) }

/-- The display behind the progress events of a job. -/
def RunView.after (total : ℕ) (ops : List ℤ) : RunView := ops.foldl RunView.progress ⟨total, 0⟩

/-- The exit code of `cmd_run`, where the job leaves the session with these progress events and
this error. -/
def cmdRun (text : Text) (ops : List ℤ) (error : Option DeviceError) : ℕ :=
  if (cliLines text).isEmpty then 2
  else
    let view := RunView.after (cliLines text).length ops
    if (view.total : ℤ) ≤ view.acked && error.isNone then 0 else 1

/-- The progress events of the job that starts in `c`. -/
def progressOf (text : Text) (c : Core) : List ℤ :=
  ((acknowledged (cliJob text) c).events.drop c.events.length).filterMap SessionEvent.opIndex

/-- **The job is recognised**: the display ends at the total, and the exit code is zero. -/
structure Recognised (text : Text) (c : Core) : Prop where
  acked : (RunView.after (cliLines text).length (progressOf text c)).acked = (cliLines text).length
  exit : cmdRun text (progressOf text c) (acknowledged (cliJob text) c).state.error = 0

/-! ### What the display shows -/

/-- Progress in order moves the display behind the last operation. -/
theorem acked_upTo (total : ℕ) {m : ℤ} (hm : -1 ≤ m) :
    (RunView.after total (upTo m)).acked = m + 1 := by
  obtain ⟨n, hn⟩ : ∃ n : ℕ, m + 1 = n := ⟨(m + 1).toNat, by omega⟩
  have hrange (k : ℕ) : (RunView.after total ((List.range k).map fun i : ℕ => (i : ℤ))).acked = k := by
    induction k with
    | zero => rfl
    | succ k ih =>
      have hnext : (RunView.after total ((List.range (k + 1)).map fun i : ℕ => (i : ℤ))).acked =
          max (RunView.after total ((List.range k).map fun i : ℕ => (i : ℤ))).acked (k + 1) := by
        rw [List.range_succ, List.map_append, RunView.after, List.foldl_append]
        rfl
      rw [hnext, ih]
      omega
  have hcast : upTo m = (List.range n).map fun i : ℕ => (i : ℤ) := by
    rw [upTo, hn, Int.toNat_natCast]
  rw [hcast, hrange, hn]

/-- The operation the command gives to a line of the session. -/
theorem opIndex_cliJob (text : Text) (idx : ℕ) :
    (cliJob text).opIndex idx = if idx < (cliLines text).length then some (idx : ℤ) else none := by
  have hlookup (n : ℕ) : ((List.range n).map fun i : ℕ => (i, (i : ℤ))).lookup idx =
      if idx < n then some (idx : ℤ) else none := by
    induction n with
    | zero => rfl
    | succ n ih =>
      rw [List.range_succ, List.map_append, List.lookup_append, ih]
      by_cases hlt : idx < n
      · rw [if_pos hlt, if_pos (by omega)]
        rfl
      · by_cases heq : idx = n
        · subst heq
          simp
        · rw [if_neg hlt, if_neg (by omega)]
          simp [heq]
  exact hlookup _

/-- The operations of the lines sent. -/
def Job.sentOps (job : Job) : List ℤ := job.sends.filterMap Send.opIndex

/-- The events of a session only grow with the responses. -/
theorem events_acknowledged (sends : List Send) : ∀ c : Core, ∃ es,
    ((sends.map fun s => (⟨.ok, "ok".toList, some s.entry⟩ : GrblResponse)).foldl
      Core.handleResponse c).events = c.events ++ es := by
  induction sends with
  | nil => exact fun c => ⟨[], (List.append_nil _).symm⟩
  | cons s sends ih =>
    intro c
    rw [List.map_cons, List.foldl_cons]
    obtain ⟨es, hes⟩ := ih (c.handleResponse ⟨.ok, "ok".toList, some s.entry⟩)
    have hhead : ∃ es', (c.handleResponse ⟨.ok, "ok".toList, some s.entry⟩).events =
        c.events ++ es' := by
      show ∃ es', (c.handleOk (some s.entry)).events = _
      unfold Core.handleOk
      dsimp only
      split
      · exact ⟨_, rfl⟩
      · exact ⟨[], (List.append_nil _).symm⟩
    obtain ⟨es', hes'⟩ := hhead
    exact ⟨es' ++ es, by rw [hes, hes', List.append_assoc]⟩

/-- An `ok` leaves the error alone. -/
theorem error_acknowledged (sends : List Send) : ∀ c : Core,
    ((sends.map fun s => (⟨.ok, "ok".toList, some s.entry⟩ : GrblResponse)).foldl
      Core.handleResponse c).state.error = c.state.error := by
  induction sends with
  | nil => exact fun c => rfl
  | cons s sends ih =>
    intro c
    rw [List.map_cons, List.foldl_cons, ih]
    show (c.handleOk (some s.entry)).state.error = _
    unfold Core.handleOk
    dsimp only
    split <;> rfl

theorem filterMap_op_sends (sends : List Send) :
    (sends.map fun s => (⟨.ok, "ok".toList, some s.entry⟩ : GrblResponse)).filterMap
      GrblResponse.op = sends.filterMap Send.opIndex := by
  rw [List.filterMap_map]
  refine List.filterMap_congr fun s _ => ?_
  rfl

/-! ### The operations of the command -/

/-- The lines sent from `idx` on are the lines there that are not empty. -/
theorem mem_sendsFrom {job : Job} : ∀ {rest : List Text} {idx : ℕ} {a : ℤ},
    a ∈ (job.sendsFrom idx rest).filterMap Send.opIndex ↔ ∃ k raw, rest[k]? = some raw ∧
      (stripGcodeComments raw).isEmpty = false ∧ job.opIndex (idx + k) = some a := by
  intro rest
  induction rest with
  | nil => simp [Job.sendsFrom]
  | cons rawLine rest ih =>
    intro idx a
    have hrest : a ∈ (job.sendsFrom (idx + 1) rest).filterMap Send.opIndex ↔
        ∃ k raw, (rawLine :: rest)[k + 1]? = some raw ∧
          (stripGcodeComments raw).isEmpty = false ∧ job.opIndex (idx + (k + 1)) = some a := by
      rw [ih]
      simp only [List.getElem?_cons_succ, Nat.add_assoc, Nat.add_comm 1]
    rw [Job.sendsFrom]
    split_ifs with hempty
    · rw [hrest]
      constructor
      · rintro ⟨k, h⟩
        exact ⟨k + 1, h⟩
      · rintro ⟨_ | k, raw, hraw, hne, hop⟩
        · rw [List.getElem?_cons_zero, Option.some.injEq] at hraw
          rw [← hraw, hempty] at hne
          cases hne
        · exact ⟨k, raw, hraw, hne, hop⟩
    · have hhead : a ∈ List.filterMap Send.opIndex
          (⟨idx, stripGcodeComments rawLine, job.opIndex idx, rest⟩ ::
            job.sendsFrom (idx + 1) rest) ↔
          job.opIndex idx = some a ∨ a ∈ (job.sendsFrom (idx + 1) rest).filterMap Send.opIndex := by
        simp only [List.mem_filterMap, List.mem_cons, exists_eq_or_imp]
      rw [hhead, hrest]
      constructor
      · rintro (hop | ⟨k, h⟩)
        · exact ⟨0, rawLine, rfl, by simpa using hempty, hop⟩
        · exact ⟨k + 1, h⟩
      · rintro ⟨_ | k, raw, hraw, hne, hop⟩
        · exact .inl hop
        · exact .inr ⟨k, raw, hraw, hne, hop⟩

/-- An operation sent by the command is the number of its line. -/
theorem mem_sentOps {text : Text} {rest : List Text} {idx : ℕ} {a : ℤ}
    (h : a ∈ ((cliJob text).sendsFrom idx rest).filterMap Send.opIndex) : (idx : ℤ) ≤ a := by
  obtain ⟨k, raw, -, -, hop⟩ := mem_sendsFrom.mp h
  rw [opIndex_cliJob] at hop
  split_ifs at hop
  cases hop
  omega

/-- The operations sent rise. -/
theorem sorted_sendsFrom (text : Text) : ∀ (rest : List Text) (idx : ℕ),
    (((cliJob text).sendsFrom idx rest).filterMap Send.opIndex).Pairwise (· ≤ ·) := by
  intro rest
  induction rest with
  | nil => exact fun _ => List.Pairwise.nil
  | cons rawLine rest ih =>
    intro idx
    rw [Job.sendsFrom]
    split_ifs with hempty
    · exact ih (idx + 1)
    · rw [List.filterMap_cons]
      split
      · exact ih (idx + 1)
      · rename_i a hop
        rw [opIndex_cliJob] at hop
        split_ifs at hop
        cases hop
        refine List.pairwise_cons.mpr ⟨fun b hb => ?_, ih (idx + 1)⟩
        have := mem_sentOps hb
        omega

/-- **The display ends behind the highest operation sent.** -/
theorem progressOf_eq (text : Text) (c : Core) :
    progressOf text c = upTo (highest (cliJob text).sentOps) := by
  have hsorted : ([] ++ (cliJob text).sentOps).Pairwise (· ≤ ·) :=
    sorted_sendsFrom text (cliJob text).lines 0
  have hnonneg : ∀ a ∈ (cliJob text).sentOps, 0 ≤ a := fun a ha => by
    have := mem_sentOps ha
    omega
  have hreports : upTo (highest []) ++ reports (highest []) (cliJob text).sentOps =
      upTo (highest ([] ++ (cliJob text).sentOps)) :=
    (upTo_append_reports hsorted hnonneg).1
  obtain ⟨es, hes⟩ := events_acknowledged (cliJob text).sends c.startJob
  have hdone := (foldl_handleResponse_progress ((cliJob text).sends.map fun s =>
    (⟨.ok, "ok".toList, some s.entry⟩ : GrblResponse)) c.startJob (.inl rfl)).2
  rw [filterMap_op_sends] at hdone
  have hevents : c.startJob.events = c.events := rfl
  have hsplit : (c.events ++ es).filterMap SessionEvent.opIndex =
      c.events.filterMap SessionEvent.opIndex ++ reports (-1) (cliJob text).sentOps := by
    rw [← hevents, ← hes]
    exact hdone
  rw [List.filterMap_append, List.append_cancel_left_eq] at hsplit
  rw [progressOf, acknowledged, hes, hevents, List.drop_left, hsplit]
  simpa using hreports

theorem acked_eq (text : Text) (c : Core) :
    (RunView.after (cliLines text).length (progressOf text c)).acked =
      highest (cliJob text).sentOps + 1 := by
  rw [progressOf_eq, acked_upTo _ (neg_one_le_highest _)]

/-- The highest operation is the last that the command counts exactly if that line is sent. -/
theorem highest_sentOps (text : Text) {n : ℕ} (hn : (cliLines text).length = n + 1) :
    highest (cliJob text).sentOps = n ↔
      ((lines text)[n]?).any fun raw => !(stripGcodeComments raw).isEmpty := by
  have hmem : (n : ℤ) ∈ (cliJob text).sentOps ↔
      ((lines text)[n]?).any fun raw => !(stripGcodeComments raw).isEmpty := by
    rw [Job.sentOps, Job.sends, mem_sendsFrom, Option.any_eq_true]
    constructor
    · rintro ⟨k, raw, hraw, hne, hop⟩
      rw [opIndex_cliJob] at hop
      split_ifs at hop
      obtain rfl : k = n := by
        have := Option.some.inj hop
        omega
      exact ⟨raw, hraw, by rw [hne]; rfl⟩
    · rintro ⟨raw, hraw, hne⟩
      refine ⟨n, raw, hraw, by simpa using hne, ?_⟩
      rw [opIndex_cliJob, if_pos (by omega), Nat.zero_add]
  have hle : highest (cliJob text).sentOps ≤ n := by
    refine highest_le (by omega) fun a ha => ?_
    obtain ⟨k, raw, -, -, hop⟩ := mem_sendsFrom.mp ha
    rw [opIndex_cliJob] at hop
    split_ifs at hop
    cases hop
    omega
  rw [← hmem]
  constructor
  · intro h
    rw [← h]
    exact highest_mem (by omega)
  · exact fun h => le_antisymm hle (le_highest h)

/-- **When a successful job is recognised.**  For every text and every session: if all lines are
sent and each is acknowledged by `ok`, the command ends at its total with exit code zero exactly
when it counts a line at all and the session's line with the number of the last operation is there
and is no comment. -/
theorem cmdRun_recognises_iff (text : Text) (c : Core) :
    Recognised text c ↔ ∃ n, (cliLines text).length = n + 1 ∧
      ((lines text)[n]?).any fun raw => !(stripGcodeComments raw).isEmpty := by
  have herror : (acknowledged (cliJob text) c).state.error = none :=
    error_acknowledged _ c.startJob
  constructor
  · rintro ⟨hacked, hexit⟩
    rw [acked_eq] at hacked
    cases hn : (cliLines text).length with
    | zero =>
      rw [cmdRun, if_pos (List.isEmpty_iff_length_eq_zero.mpr hn)] at hexit
      cases hexit
    | succ n =>
      refine ⟨n, rfl, (highest_sentOps text hn).mp ?_⟩
      rw [hn] at hacked
      omega
  · rintro ⟨n, hn, hsent⟩
    have hhigh := (highest_sentOps text hn).mpr hsent
    have hacked : (RunView.after (cliLines text).length (progressOf text c)).acked =
        (cliLines text).length := by
      rw [acked_eq, hhigh, hn]
      rfl
    have hne : (cliLines text).isEmpty = false := by
      rw [Bool.eq_false_iff, Ne, List.isEmpty_iff_length_eq_zero, hn]
      omega
    refine ⟨hacked, ?_⟩
    rw [cmdRun, hne, if_neg Bool.false_ne_true]
    -- the total is the number of lines from the start
    have htotal (ops : List ℤ) : ∀ v : RunView,
        (ops.foldl RunView.progress v).total = v.total := by
      induction ops with
      | nil => exact fun v => rfl
      | cons op ops ih => exact fun v => ih _
    have hview : ((RunView.after (cliLines text).length (progressOf text c)).total : ℤ) ≤
        (RunView.after (cliLines text).length (progressOf text c)).acked := by
      rw [hacked, RunView.after, htotal]
    simp [hview, herror]

/-- A blank line between two moves: the session gives the second move the number 2, for which
the command has no operation. -/
theorem blank_line_not_recognised : ¬ Recognised "G1 X1\n\nG1 X2\n".toList {} := by
  rintro ⟨-, hexit⟩
  revert hexit
  decide +kernel

/-! ### Lines that are empty -/

/-- The session sends the lines that are not empty without their comments. -/
theorem lines_sendsFrom (job : Job) : ∀ (rest : List Text) (idx : ℕ),
    (job.sendsFrom idx rest).map Send.line =
      (rest.map stripGcodeComments).filter fun line => !line.isEmpty := by
  intro rest
  induction rest with
  | nil => exact fun _ => rfl
  | cons rawLine rest ih =>
    intro idx
    rw [Job.sendsFrom, List.map_cons, List.filter_cons]
    cases (stripGcodeComments rawLine).isEmpty with
    | true => exact ih (idx + 1)
    | false => exact congrArg (stripGcodeComments rawLine :: ·) (ih (idx + 1))

/-- The lines that the command counts, without their comments. -/
theorem strip_cliLines (text : Text) : (cliLines text).map stripGcodeComments =
    ((splitlines text).map stripGcodeComments).filter fun line => !line.isEmpty := by
  rw [cliLines, List.filter_map]
  rfl

/-- **Comments are taken out by one scan.**  For every line: what is left is the trimmed output of
the scan, it holds no comment, and stripping it again leaves it as it is.  So a session that is
given the lines of a text sends the lines that the command has counted, and the same if they
have been stripped before. -/
theorem strip_is_one_scan (line : Text) :
    stripGcodeComments line = trim (scanComments false line) ∧
      (';' ∉ stripGcodeComments line ∧
        (stripGcodeComments line).Pairwise fun a b => ¬ (a = '(' ∧ b = ')')) ∧
      stripGcodeComments (stripGcodeComments line) = stripGcodeComments line ∧
      ∀ (text : Text) (job : Job), job.lines = splitlines text →
        job.sends.map Send.line = (cliLines text).map stripGcodeComments ∧
          ({ job with lines := job.lines.map stripGcodeComments } : Job).sends.map Send.line =
            job.sends.map Send.line := by
  obtain ⟨hsemi, hgroups⟩ := uncommented_stripGcodeComments line
  refine ⟨stripGcodeComments_eq line, ⟨hsemi, hgroups⟩, stripGcodeComments_idem line,
    fun text job hlines => ⟨?_, ?_⟩⟩
  · rw [Job.sends, lines_sendsFrom, hlines, strip_cliLines]
  · have hidem : stripGcodeComments ∘ stripGcodeComments = stripGcodeComments :=
      funext stripGcodeComments_idem
    rw [Job.sends, Job.sends, lines_sendsFrom, lines_sendsFrom, List.map_map, hidem]

/-- A `;` inside a group, an unclosed group and a group behind a `;`, on the lines of a text. -/
theorem strip_is_one_scan_groups :
    (({ lines := ["G1 (a;b) X1".toList, "(;) ; (x".toList] } : Job).sends.map Send.line =
      (cliLines "G1 (a;b) X1\n(;) ; (x".toList).map stripGcodeComments) :=
  ((strip_is_one_scan []).2.2.2 "G1 (a;b) X1\n(;) ; (x".toList _ (by decide)).1

end Raydriver
