import Raydriver.Emulator.Firmware

/-!
# What one line does to the emulator

A line that is executed is acknowledged at once, or it plans a probe cycle that will
acknowledge it, or it raises a soft limit alarm.  Beyond that it plans blocks, at most as
many as its words ask for.

## Main definitions

* `Block.defers` — the block acknowledges its line when it is finished.
* `defersAck` — the line is a probe cycle.
* `blockLimit` — the blocks a line can plan.
* `Executed` — what executing a line can do.

## Main results

* `execWords_collected` — what the words of a line add up to.
* `executeLine_executed` — **one line does one of these three things.**
-/

namespace Raydriver.Emulator

open PyFloat

variable {F : Type} [PyFloat F]

/-! ### Words -/

/-- A `G` word with one of these values. -/
def Word.isG (w : Word F) (values : List String) : Bool := w.letter = 'G' && isIn w.value values

/-- A word that asks for motion. -/
def Word.isMotion (w : Word F) : Bool := w.isG ["0", "1", "2", "3", "38.2"]

/-- A word that asks for a dwell. -/
def Word.isDwell (w : Word F) : Bool := w.isG ["4"]

/-- A word that names an axis. -/
def Word.isAxis (w : Word F) : Bool := w.letter = 'X' || w.letter = 'Y' || w.letter = 'Z'

/-- A word that does not raise error 20. -/
def Word.supported (w : Word F) : Bool :=
  if w.letter = 'G' then
    isIn w.value ["0", "1", "2", "3", "38.2"] || isIn w.value ["4"] || isIn w.value ["10"] ||
      isIn w.value ["17", "18", "19"] || isIn w.value ["20", "21"] ||
      isIn w.value ["90", "91"] || isIn w.value ["93", "94"] ||
      isIn w.value ["54", "55", "56", "57", "58", "59"] || isIn w.value ["28", "30", "92", "53"]
  else if w.letter = 'M' then
    isIn w.value ["3", "4", "5"] || isIn w.value ["8", "9"] || isIn w.value ["0", "1", "2"]
  else true

/-- The motion a line asks for last. -/
def lastMotion (words : List (Word F)) : Option F :=
  (words.filter Word.isMotion).getLast?.map Word.value

/-- The words are those of a probe cycle. -/
def probes (words : List (Word F)) : Bool :=
  words.all Word.supported && (lastMotion words).any (fun v => isIn v ["38.2"]) &&
    words.any Word.isAxis

/-- The line is a probe cycle, which is acknowledged when it is over. -/
def defersAck (F : Type) [PyFloat F] (raw : Text) : Bool :=
  !startsWith "$".toList (upper (strip raw)) && probes (parseWords (F := F) raw)

/-- The blocks that the words of a line ask for: a dwell, and a motion along some axis. -/
def wordBlocks (words : List (Word F)) : ℕ :=
  (words.any Word.isDwell).toNat + (words.any Word.isMotion && words.any Word.isAxis).toNat

/-- The blocks a line can plan. -/
def blockLimit (homing : Bool) (F : Type) [PyFloat F] (raw : Text) : ℕ :=
  let stripped := upper (strip raw)
  if startsWith "$J=".toList stripped then 1
  else if startsWith "$".toList stripped then (Firmware.isHoming stripped && homing).toNat
  else wordBlocks (parseWords (F := F) raw)

/-- An acknowledgement: `ok` or an error. -/
def isAck (data : Text) : Bool := data = "ok\r\n".toList || startsWith "error:".toList data

/-- The block acknowledges its line when it is finished. -/
def Block.defers (b : Block F) : Bool := !b.isHome && (b.probeTouch.isSome || b.isProbe)

namespace Firmware

/-- What the next word collects. -/
theorem execWord_cases (words : List (Word F)) (w : Word F) (m : Modes F) (c : Collected F) :
    (w.supported = false ∧ execWord words w m c = none) ∨
      (w.supported = true ∧ ∃ m' c', execWord words w m c = some (m', c') ∧
        c'.motionPending = (if w.isMotion then some w.value else c.motionPending) ∧
        (c'.dwell.isSome = true → w.isDwell = true ∨ c.dwell.isSome = true)) := by
  unfold execWord Word.supported Word.isMotion Word.isDwell Word.isG
  by_cases hG : w.letter = 'G'
  · simp only [hG, if_true, decide_true, Bool.true_and]
    generalize isIn w.value ["0", "1", "2", "3", "38.2"] = motion
    generalize isIn w.value ["4"] = dwell
    generalize isIn w.value ["10"] = b10
    generalize isIn w.value ["17", "18", "19"] = b17
    generalize isIn w.value ["20", "21"] = b20
    generalize isIn w.value ["90", "91"] = b90
    generalize isIn w.value ["93", "94"] = b93
    generalize isIn w.value ["54", "55", "56", "57", "58", "59"] = b54
    generalize isIn w.value ["28", "30", "92", "53"] = b28
    -- the first test that succeeds decides
    cases motion
    case true => simpa using Or.inr
    cases dwell
    case true => simp
    cases b10
    case true => simp
    cases b17
    case true => simp
    cases b20
    case true => simp
    cases b90
    case true => simp
    cases b93
    case true => simp
    cases b54
    case true => simp
    cases b28
    case true => simp
    simp
  · by_cases hM : w.letter = 'M'
    · simp only [hM, if_true, Char.reduceEq, if_false, decide_false, Bool.false_and]
      generalize isIn w.value ["3", "4", "5"] = b3
      generalize isIn w.value ["8", "9"] = b8
      generalize isIn w.value ["0", "1", "2"] = b0
      cases b3 <;> cases b8 <;> cases b0 <;> simp
    · simp only [hG, hM, if_false, decide_false, Bool.false_and, Bool.false_eq_true]
      right
      refine ⟨trivial, ?_⟩
      by_cases hF : w.letter = 'F'
      · rw [if_pos hF]
        exact ⟨_, _, rfl, rfl, .inr⟩
      · rw [if_neg hF]
        by_cases hS : w.letter = 'S'
        · rw [if_pos hS]
          exact ⟨_, _, rfl, rfl, .inr⟩
        · rw [if_neg hS]
          exact ⟨_, _, rfl, rfl, .inr⟩

theorem lastMotion_cons (w : Word F) (ws : List (Word F)) :
    lastMotion (w :: ws) =
      (lastMotion ws).or (if w.isMotion then some w.value else none) := by
  unfold lastMotion
  rw [List.filter_cons]
  cases w.isMotion with
  | false => simp
  | true =>
    rw [if_pos rfl, List.getLast?_cons]
    cases (ws.filter Word.isMotion).getLast? <;> rfl

/-- **What the words of a line add up to.** -/
theorem execWords_collected (words : List (Word F)) : ∀ (ws : List (Word F)) (m : Modes F)
    (c : Collected F),
    (execWords words ws m c).2.2 = !ws.all Word.supported ∧
      ((execWords words ws m c).2.2 = false →
        (execWords words ws m c).2.1.motionPending = (lastMotion ws).or c.motionPending) ∧
      ((execWords words ws m c).2.1.dwell.isSome = true →
        ws.any Word.isDwell = true ∨ c.dwell.isSome = true) := by
  intro ws
  induction ws with
  | nil => exact fun m c => ⟨rfl, fun _ => rfl, .inr⟩
  | cons w ws ih =>
    intro m c
    rcases execWord_cases words w m c with ⟨hw, hnone⟩ | ⟨hw, m', c', hsome, hmotion, hdwell⟩
    · simp only [execWords, hnone, List.all_cons, hw]
      exact ⟨rfl, nofun, .inr⟩
    · simp only [execWords, hsome, List.all_cons, hw, Bool.true_and, List.any_cons,
        Bool.or_eq_true]
      obtain ⟨hrefused, hpending, hd⟩ := ih m' c'
      refine ⟨hrefused, fun h => ?_, fun h => ?_⟩
      · rw [hpending h, hmotion, lastMotion_cons]
        cases lastMotion ws with
        | some v => rfl
        | none => cases w.isMotion <;> rfl
      · rcases hd h with h | h
        · exact .inl (.inr h)
        · exact (hdwell h).imp .inl id

/-! ### The target of a motion -/

/-- Some word that asks for motion gives the motion. -/
theorem isSome_lastMotion (words : List (Word F)) :
    (lastMotion words).isSome = words.any Word.isMotion := by
  induction words with
  | nil => rfl
  | cons w ws ih =>
    rw [lastMotion_cons, List.any_cons, ← ih]
    cases lastMotion ws <;> cases w.isMotion <;> rfl

/-- What one word adds to a motion. -/
theorem read_cases (m : MotionWords F) (w : Word F) :
    ((m.read w).motion.isSome = true ↔ w.isMotion = true ∨ m.motion.isSome = true) ∧
      (((m.read w).x.isSome || (m.read w).y.isSome || (m.read w).z.isSome) =
        (w.isAxis || (m.x.isSome || m.y.isSome || m.z.isSome))) := by
  have hmotion : isIn w.value ["0", "1", "2", "3", "38.2"] =
      (isIn w.value ["0", "1", "2", "3"] || isIn w.value ["38.2"]) := by
    simp [isIn, Bool.or_assoc]
  unfold MotionWords.read Word.isMotion Word.isG Word.isAxis
  rw [hmotion]
  by_cases hG : w.letter = 'G'
  · simp only [hG, if_true, decide_true, Bool.true_and, Char.reduceEq, decide_false, Bool.or_false,
      Bool.false_or]
    split_ifs <;> simp_all
  · simp only [hG, if_false, decide_false, Bool.false_and]
    split_ifs <;> simp_all

/-- What the words of a line say about its motion. -/
theorem foldl_read (words : List (Word F)) : ∀ m : MotionWords F,
    ((words.foldl MotionWords.read m).motion.isSome = true ↔
        words.any Word.isMotion = true ∨ m.motion.isSome = true) ∧
      (((words.foldl MotionWords.read m).x.isSome || (words.foldl MotionWords.read m).y.isSome ||
          (words.foldl MotionWords.read m).z.isSome) =
        (words.any Word.isAxis || (m.x.isSome || m.y.isSome || m.z.isSome))) := by
  induction words with
  | nil => intro m; simp
  | cons w ws ih =>
    intro m
    obtain ⟨hmotion, haxis⟩ := ih (m.read w)
    obtain ⟨hmotion', haxis'⟩ := read_cases m w
    refine ⟨?_, ?_⟩
    · rw [List.foldl_cons, hmotion, hmotion', List.any_cons, Bool.or_eq_true]
      tauto
    · rw [List.foldl_cons, haxis, haxis', List.any_cons]
      cases ws.any Word.isAxis <;> cases w.isAxis <;> rfl

/-- **A line that asks for motion has a target, and an axis if it names one.** -/
theorem resolveMotion_target {words : List (Word F)} (h : words.any Word.isMotion = true)
    (s : Firmware F) : ∃ target feed,
    s.resolveMotion words none = (some target, feed, words.any Word.isAxis) := by
  unfold resolveMotion
  obtain ⟨hmotion, haxis⟩ := foldl_read words
    { distance := s.modes.modal.distance
      scale := s.modes.scale
      motion := s.modes.modal.motion
      feed := s.modes.feed }
  obtain ⟨motion, hm⟩ := Option.isSome_iff_exists.mp (hmotion.mpr (.inl h))
  simp only [hm, Option.some_or]
  exact ⟨_, _, Prod.ext rfl (Prod.ext rfl (haxis.trans (Bool.or_false _)))⟩

/-! ### What a line does -/

section Plans

omit [PyFloat F]

/-- From `s` to `t` a line has set modes and planned these blocks. -/
structure Plans (s t : Firmware F) (blocks : List (Block F)) : Prop where
  rx : t.rx = s.rx
  executed : t.executed = s.executed
  currentBlock : t.currentBlock = s.currentBlock
  silent : t.silent = s.silent
  state : t.state = s.state
  log : t.log = s.log
  planner : t.planner = s.planner ++ blocks

theorem Plans.refl (s : Firmware F) : Plans s s [] :=
  ⟨rfl, rfl, rfl, rfl, rfl, rfl, (List.append_nil _).symm⟩

theorem Plans.trans {s t u : Firmware F} {bs bs' : List (Block F)} (h : Plans s t bs)
    (h' : Plans t u bs') : Plans s u (bs ++ bs') where
  rx := h'.rx.trans h.rx
  executed := h'.executed.trans h.executed
  currentBlock := h'.currentBlock.trans h.currentBlock
  silent := h'.silent.trans h.silent
  state := h'.state.trans h.state
  log := h'.log.trans h.log
  planner := by rw [h'.planner, h.planner, List.append_assoc]

theorem plan_plans (block : Block F) (s : Firmware F) : Plans s (s.plan block) [block] :=
  ⟨rfl, rfl, rfl, rfl, rfl, rfl, rfl⟩

end Plans

/-- The line has raised an alarm, which clears the planner and the queue. -/
structure Alarmed (s t : Firmware F) : Prop where
  rx : t.rx = { rxOverrun := s.rx.rxOverrun }
  planner : t.planner = []
  currentBlock : t.currentBlock = none
  state : t.state = .alarm

theorem checkSoftLimits_cases (n : ℕ) (target : Vec F) (s : Firmware F) :
    s.checkSoftLimits n target = s ∨ Alarmed s (s.checkSoftLimits n target) := by
  unfold checkSoftLimits
  split
  · exact .inl rfl
  · dsimp only
    split
    · exact .inr ⟨rfl, rfl, rfl, rfl⟩
    · exact .inl rfl

/-- A probe cycle is planned, or raises an alarm. -/
theorem execProbe_cases (n : ℕ) (target : Vec F) (feed : F) {s : Firmware F}
    (hs : s.state ≠ .alarm) :
    (∃ block, Plans s (s.execProbe n target feed) [block] ∧ block.defers = true ∧
      block.line = n) ∨ Alarmed s (s.execProbe n target feed) := by
  unfold execProbe
  rcases checkSoftLimits_cases n target s with h | h
  · left
    rw [h, if_neg hs]
    exact ⟨_, plan_plans _ s, by simp [Block.defers], rfl⟩
  · right
    rw [if_pos h.state]
    exact h

/-- What a motion can come to. -/
inductive MotionDone (n : ℕ) (axis probe : Bool) (s : Firmware F) :
    Firmware F × Except ℤ Bool → Prop
  | refused {t : Firmware F} {code : ℤ} (h : Plans s t []) (hprobe : (axis && probe) = false) :
      MotionDone n axis probe s (t, .error code)
  | planned {t : Firmware F} {blocks : List (Block F)} (h : Plans s t blocks)
      (hlen : blocks.length ≤ axis.toNat) (hblocks : ∀ b ∈ blocks, b.defers = false)
      (hprobe : (axis && probe) = false) : MotionDone n axis probe s (t, .ok true)
  | deferred {t : Firmware F} {block : Block F} (h : Plans s t [block])
      (hdefers : block.defers = true) (hline : block.line = n) (haxis : axis = true)
      (hprobe : probe = true) : MotionDone n axis probe s (t, .ok false)
  | alarmed {t : Firmware F} (h : Alarmed s t) : MotionDone n axis probe s (t, .ok false)

omit [PyFloat F] in
/-- One block is planned for a motion along an axis. -/
theorem MotionDone.single {n : ℕ} {s t : Firmware F} {block : Block F} (h : Plans s t [block])
    (hblock : block.defers = false) : MotionDone n true false s (t, .ok true) :=
  .planned h (Nat.le_refl _) (fun _ hb => List.mem_singleton.mp hb ▸ hblock) rfl

theorem execMotion_done (n : ℕ) (v : F) {words : List (Word F)}
    (hwords : words.any Word.isMotion = true) {s : Firmware F} (hs : s.state ≠ .alarm) :
    MotionDone n (words.any Word.isAxis) (isIn v ["38.2"]) s (s.execMotion n v words) := by
  obtain ⟨target, feed, htarget⟩ := resolveMotion_target hwords s
  unfold execMotion
  rw [htarget]
  cases hprobe : isIn v ["38.2"] with
  | true =>
    simp only [if_true]
    cases haxis : words.any Word.isAxis with
    | false => exact .refused (.refl s) rfl
    | true =>
      rcases execProbe_cases n target feed hs with ⟨block, h, hdefers, hline⟩ | h
      · exact .deferred h hdefers hline rfl rfl
      · exact .alarmed h
  | false =>
    simp only [Bool.false_eq_true, if_false]
    cases haxis : words.any Word.isAxis with
    | false =>
      -- no axis is named, so the line only sets modes
      simp only
      split_ifs
      · exact .refused (.refl s) rfl
      · exact .planned ⟨rfl, rfl, rfl, rfl, rfl, rfl, (List.append_nil _).symm⟩ (Nat.zero_le _)
          (fun b hb => absurd hb List.not_mem_nil) rfl
    | true =>
      simp only
      rcases checkSoftLimits_cases n target s with h | h
      · simp only [h, hs, if_false]
        split_ifs
        · exact .refused (.refl s) rfl
        · exact .refused ⟨rfl, rfl, rfl, rfl, rfl, rfl, (List.append_nil _).symm⟩ rfl
        all_goals exact .single ⟨rfl, rfl, rfl, rfl, rfl, rfl, rfl⟩ rfl
      · simp only [h.state, if_true]
        split_ifs
        · exact .refused (.refl s) rfl
        · exact .alarmed h

/-- The line numbered `n` is acknowledged, behind what it prints. -/
structure Answers (n : ℕ) (s t : Firmware F) : Prop where
  rx : t.rx = s.rx
  executed : t.executed = s.executed
  currentBlock : t.currentBlock = s.currentBlock
  silent : t.silent = s.silent
  planner : t.planner = s.planner
  state : t.state = s.state ∨ t.state = .idle
  log : ∃ (infos : List Text) (data : Text), (∀ info ∈ infos, isAck info = false) ∧
    isAck data = true ∧ t.log = s.log ++ infos.map (Output.mk · none) ++ [⟨data, some n⟩]

/-- What executing the line numbered `n` can do. -/
inductive Executed (n limit : ℕ) (probe : Bool) (s : Firmware F) : Firmware F → Prop
  | answered {t u : Firmware F} {blocks : List (Block F)} (h : Plans s u blocks)
      (hlen : blocks.length ≤ limit) (hblocks : ∀ b ∈ blocks, b.defers = false)
      (ha : Answers n u t) (hprobe : s.state = .alarm ∨ probe = false) :
      Executed n limit probe s t
  | deferred {t : Firmware F} {blocks : List (Block F)} {block : Block F}
      (h : Plans s t (blocks ++ [block])) (hlen : blocks.length + 1 ≤ limit)
      (hblocks : ∀ b ∈ blocks, b.defers = false) (hdefers : block.defers = true)
      (hline : block.line = n) (hprobe : probe = true) : Executed n limit probe s t
  | alarmed {t : Firmware F} (h : Alarmed s t) : Executed n limit probe s t

omit [PyFloat F] in
theorem ack_answers (n : ℕ) {data : Text} (hdata : isAck data = true) (s : Firmware F) :
    Answers n s (s.ack n data) :=
  ⟨rfl, rfl, rfl, rfl, rfl, .inl rfl, [], data, nofun, hdata, by rw [List.map_nil, List.append_nil]; rfl⟩

omit [PyFloat F] in
theorem ackOk_answers (n : ℕ) (s : Firmware F) : Answers n s (s.ackOk n) :=
  ack_answers n rfl s

omit [PyFloat F] in
theorem ackError_answers (n : ℕ) (code : ℤ) (s : Firmware F) :
    Answers n s (s.ackError n code) :=
  ack_answers n (by simp [isAck, startsWith, List.isPrefixOf]) s

omit [PyFloat F] in
/-- A line that is answered without planning anything. -/
theorem Executed.of_answers {n limit : ℕ} {probe : Bool} {s t : Firmware F}
    (h : Answers n s t) (hprobe : s.state = .alarm ∨ probe = false) :
    Executed n limit probe s t :=
  .answered (.refl s) (Nat.zero_le _) nofun h hprobe

/-- The state behind `_exec_gcode` once its error is acknowledged. -/
def settle (n : ℕ) : Firmware F × Option ℤ → Firmware F
  | (s, some code) => s.ackError n code
  | (s, none) => s

omit [PyFloat F] in
/-- What is planned first takes its share of the limit. -/
theorem Executed.after {n limit limit' : ℕ} {probe : Bool} {s u t : Firmware F}
    {blocks : List (Block F)} (hu : Plans s u blocks) (hlen : blocks.length ≤ limit)
    (hblocks : ∀ b ∈ blocks, b.defers = false) (h : Executed n limit' probe u t) :
    Executed n (limit + limit') probe s t := by
  have happend : ∀ bs : List (Block F), (∀ b ∈ bs, b.defers = false) →
      ∀ b ∈ blocks ++ bs, b.defers = false := by
    intro bs hbs b hb
    exact (List.mem_append.mp hb).elim (hblocks b) (hbs b)
  cases h with
  | answered h hlen' hbs ha hprobe =>
    refine .answered (hu.trans h) ?_ (happend _ hbs) ha (hu.state ▸ hprobe)
    rw [List.length_append]
    omega
  | @deferred bs block h hlen' hbs hdefers hline hprobe =>
    have hplans : Plans s t (blocks ++ bs ++ [block]) := by
      rw [List.append_assoc]
      exact hu.trans h
    refine .deferred hplans ?_ (happend _ hbs) hdefers hline hprobe
    · rw [List.length_append]
      omega
  | alarmed h => exact .alarmed ⟨hu.rx ▸ h.rx, h.planner, h.currentBlock, h.state⟩

omit [PyFloat F] in
/-- The dwell of a line. -/
theorem planDwell_plans (n : ℕ) (dwell : Option F) (s : Firmware F) :
    ∃ blocks, Plans s (s.planDwell n dwell) blocks ∧ blocks.length = dwell.isSome.toNat ∧
      ∀ b ∈ blocks, b.defers = false := by
  cases dwell with
  | none => exact ⟨[], .refl s, rfl, nofun⟩
  | some seconds =>
    exact ⟨_, ⟨rfl, rfl, rfl, rfl, rfl, rfl, rfl⟩, rfl,
      fun _ hb => List.mem_singleton.mp hb ▸ rfl⟩

/-- The motion of a line. -/
theorem runMotion_executed (n : ℕ) {words : List (Word F)} {s : Firmware F}
    (hs : s.state ≠ .alarm) (hall : words.all Word.supported = true) :
    Executed n (words.any Word.isMotion && words.any Word.isAxis).toNat (probes words) s
      (settle n (s.runMotion n (lastMotion words) words)) := by
  have hmotion := isSome_lastMotion words
  cases hlast : lastMotion words with
  | none =>
    have hprobe : probes words = false := by
      unfold probes
      rw [hlast]
      simp
    exact .of_answers (ackOk_answers n s) (.inr hprobe)
  | some v =>
    rw [hlast] at hmotion
    have hprobe : probes words = (words.any Word.isAxis && isIn v ["38.2"]) := by
      unfold probes
      rw [hall, hlast]
      cases words.any Word.isAxis <;> simp
    rw [← hmotion, hprobe]
    have hdone := execMotion_done n v hmotion.symm hs
    simp only [runMotion]
    rcases hrun : s.execMotion n v words with ⟨t, r⟩
    rw [hrun] at hdone
    cases hdone with
    | refused h hp => exact .answered h (Nat.zero_le _) nofun (ackError_answers n _ t) (.inr hp)
    | planned h hlen hblocks hp =>
      exact .answered h (by simpa using hlen) hblocks (ackOk_answers n t) (.inr hp)
    | deferred h hdefers hline haxis hp =>
      have hplans : Plans s _ ([] ++ [_]) := h
      refine .deferred hplans ?_ nofun hdefers hline ?_
      · simp [haxis]
      · simp [haxis, hp]
    | alarmed h => exact .alarmed h

/-- **What a G-code line can do.** -/
theorem execGcode_executed (n : ℕ) (words : List (Word F)) {s : Firmware F}
    (hs : s.state ≠ .alarm) :
    Executed n (wordBlocks words) (probes words) s (settle n (s.execGcode n words)) := by
  obtain ⟨hrefused, hpending, hdwell⟩ := execWords_collected words words s.modes {}
  unfold execGcode
  rcases hw : execWords words words s.modes {} with ⟨m, c, refused⟩
  rw [hw] at hrefused hpending hdwell
  cases refused with
  | true =>
    -- a refused line plans nothing
    have hprobe : probes words = false := by
      unfold probes
      rw [show words.all Word.supported = false by simpa using hrefused.symm]
      rfl
    have hplans : Plans s { s with modes := m } [] :=
      ⟨rfl, rfl, rfl, rfl, rfl, rfl, (List.append_nil _).symm⟩
    exact .answered hplans (Nat.zero_le _) nofun (ackError_answers n 20 _) (.inr hprobe)
  | false =>
    have hplans : Plans s { s with modes := applyWcs words c m } [] :=
      ⟨rfl, rfl, rfl, rfl, rfl, rfl, (List.append_nil _).symm⟩
    obtain ⟨blocks, hblocks, hlen, hquick⟩ :=
      planDwell_plans n c.dwell { s with modes := applyWcs words c m }
    -- the dwell is planned first, and then at most one motion
    have hlast : c.motionPending = lastMotion words := by
      rw [hpending rfl]
      exact Option.or_none
    have hrun := @runMotion_executed _ _ n words _
      (fun h => hs ((hplans.trans hblocks).state ▸ h)) (by simpa using hrefused.symm)
    simp only [Bool.false_eq_true, if_false]
    rw [hlast]
    refine Executed.after (hplans.trans hblocks) ?_ hquick hrun
    rw [List.nil_append, hlen]
    cases hd : c.dwell with
    | none => exact Nat.zero_le _
    | some seconds =>
      rcases hdwell (by rw [hd]; rfl) with h | h
      · rw [h]
        exact Nat.le_refl _
      · cases h

omit [PyFloat F] in
theorem foldl_write (ts : List Text) : ∀ s : Firmware F,
    ts.foldl (fun s t => s.write t) s =
      { s with log := s.log ++ ts.map (Output.mk · none) } := by
  induction ts with
  | nil => intro s; simp
  | cons t ts ih =>
    intro s
    rw [List.foldl_cons, ih]
    simp [write]

omit [PyFloat F] in
/-- A line that does not begin like an acknowledgement is none. -/
theorem isAck_cons {c : Char} (ho : c ≠ 'o') (he : c ≠ 'e') (t : Text) : isAck (c :: t) = false := by
  unfold isAck startsWith
  rw [Bool.or_eq_false_iff, decide_eq_false_iff_not]
  refine ⟨fun h => ho (List.cons.inj h).1, Bool.eq_false_iff.mpr fun h => he ?_⟩
  obtain ⟨u, hu⟩ := List.isPrefixOf_iff_prefix.mp h
  exact (List.cons.inj hu).1.symm

/-- A query prints no acknowledgement of its own. -/
theorem queryLines_isAck {stripped : Text} {s : Firmware F} {ts : List Text}
    (h : s.queryLines stripped = some ts) : ∀ t ∈ ts, isAck t = false := by
  have hbracketed : ∀ t : Text, isAck (bracketed t) = false := fun t => by
    rw [bracketed, List.append_assoc, List.singleton_append]
    exact isAck_cons (by decide) (by decide) _
  intro t ht
  unfold queryLines at h
  split_ifs at h <;> cases h
  · obtain ⟨e, -, rfl⟩ := List.mem_map.mp ht
    exact isAck_cons (by decide) (by decide) _
  · rcases List.mem_cons.mp ht with rfl | ht
    · exact hbracketed _
    · rw [List.mem_singleton.mp ht]
      exact hbracketed _
  · rw [List.mem_singleton.mp ht]
    exact hbracketed _
  · rcases List.mem_append.mp ht with ht | ht
    · obtain ⟨slot, -, rfl⟩ := List.mem_map.mp ht
      exact hbracketed _
    · simp only [List.mem_cons, List.not_mem_nil, or_false] at ht
      rcases ht with rfl | rfl | rfl | rfl | rfl <;> exact hbracketed _

/-- A query is answered behind what it prints. -/
theorem query_answers (n : ℕ) {stripped : Text} {s : Firmware F} {ts : List Text}
    (h : s.queryLines stripped = some ts) :
    Answers n s ((ts.foldl (fun s t => s.write t) s).ackOk n) := by
  rw [foldl_write]
  exact ⟨rfl, rfl, rfl, rfl, rfl, .inl rfl, ts, "ok\r\n".toList, queryLines_isAck h, rfl, rfl⟩

omit [PyFloat F] in
/-- `$X` unlocks the machine. -/
theorem unlock_answers (n : ℕ) (s : Firmware F) :
    Answers n s ((if s.state = MachineState.alarm then
      { s with state := MachineState.idle }.write "[MSG:Caution: Unlocked]\r\n".toList
      else { s with state := .idle }).ackOk n) := by
  split
  · exact ⟨rfl, rfl, rfl, rfl, rfl, .inr rfl, ["[MSG:Caution: Unlocked]\r\n".toList],
      "ok\r\n".toList, by decide, rfl, rfl⟩
  · exact ⟨rfl, rfl, rfl, rfl, rfl, .inr rfl, [], "ok\r\n".toList, nofun, rfl,
      by rw [List.map_nil, List.append_nil]; rfl⟩

/-- **What a system command can do.** -/
theorem execSystem_executed (n : ℕ) (stripped : Text) (s : Firmware F) :
    Executed n (isHoming stripped && !s.settingIsZero "22").toNat false s
      (s.execSystem n stripped) := by
  unfold execSystem
  cases hquery : s.queryLines stripped with
  | some ts => exact .of_answers (query_answers n hquery) (.inr rfl)
  | none =>
    simp only
    split
    · exact .of_answers (unlock_answers n s) (.inr rfl)
    · split
      · rename_i hhoming
        split
        · exact .of_answers (ackError_answers n 5 s) (.inr rfl)
        · rename_i hzero
          refine .answered (plan_plans _ s) ?_ ?_ (ackOk_answers n _) (.inr rfl)
          · simp [hhoming, hzero]
          · exact fun _ hb => List.mem_singleton.mp hb ▸ rfl
      · cases readSetting stripped with
        | none => exact .of_answers (ackError_answers n 20 s) (.inr rfl)
        | some e =>
          cases hvalue : readValue (F := F) e.2 with
          | none =>
            simp only [hvalue]
            exact .of_answers (ackError_answers n 5 s) (.inr rfl)
          | some value =>
            simp only [hvalue]
            split
            · have hplans : Plans s { s with settings := insert e.1 value s.settings } [] :=
                ⟨rfl, rfl, rfl, rfl, rfl, rfl, (List.append_nil _).symm⟩
              exact .answered hplans (Nat.zero_le _) nofun (ackOk_answers n _) (.inr rfl)
            · exact .of_answers (ackError_answers n 20 s) (.inr rfl)

/-- What a jog command can do. -/
theorem execJog_executed (n : ℕ) (words : List (Word F)) (s : Firmware F) :
    Executed n 1 false s (s.execJog n words) := by
  unfold execJog
  split
  · exact .of_answers (ackError_answers n 9 s) (.inr rfl)
  · split
    · exact .answered (plan_plans _ s) (Nat.le_refl _)
        (fun _ hb => List.mem_singleton.mp hb ▸ rfl) (ackOk_answers n _) (.inr rfl)
    · exact .of_answers (ackError_answers n 16 s) (.inr rfl)

/-- **What executing a line can do.** -/
theorem executeLine_executed (n : ℕ) (raw : Text) (s : Firmware F) :
    Executed n (blockLimit (!s.settingIsZero "22") F raw) (defersAck F raw) s
      (s.executeLine n raw) := by
  unfold executeLine blockLimit defersAck
  generalize upper (strip raw) = stripped
  generalize parseWords (F := F) raw = words
  simp only
  by_cases hempty : words.isEmpty = true ∧ stripped.isEmpty = true
  · rw [if_pos hempty]
    have hprobe : probes words = false := by
      rw [List.isEmpty_iff.mp hempty.1]
      rfl
    exact .of_answers (ackOk_answers n s) (.inr (by rw [hprobe, Bool.and_false]))
  · rw [if_neg hempty]
    by_cases hjog : startsWith "$J=".toList stripped = true
    · have hsystem : startsWith "$".toList stripped = true := by
        obtain ⟨t, rfl⟩ := List.isPrefixOf_iff_prefix.mp hjog
        rfl
      rw [if_pos hjog, if_pos hjog, hsystem]
      exact execJog_executed n words s
    · rw [if_neg hjog, if_neg hjog]
      by_cases hsystem : startsWith "$".toList stripped = true
      · rw [if_pos hsystem, if_pos hsystem, hsystem]
        exact execSystem_executed n stripped s
      · rw [if_neg hsystem, if_neg hsystem, Bool.eq_false_iff.mpr hsystem]
        split
        · rename_i halarm
          exact .of_answers (ackError_answers n 9 s) (.inl halarm)
        · rename_i halarm
          have hcode := execGcode_executed n words halarm
          rcases hrun : s.execGcode n words with ⟨t, code⟩
          rw [hrun] at hcode
          cases code <;> exact hcode

end Firmware

end Raydriver.Emulator
