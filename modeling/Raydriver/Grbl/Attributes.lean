import Raydriver.Grbl.Parser
import Raydriver.Lib.Latest

/-!
# The attributes of a status report

A status report is a status and a list of attributes.  The loop over the attributes is an
`else if` chain on a state with three flags, but each attribute can only be read in one way,
so the state behind the loop is given by the latest reading of each kind.

## Main definitions

* `reportParts`, `statusPartOf`, `attributesOf` — the parts of a report.
* `readMpos`, `readWpos`, `readWco`, `readFeed`, `readBuffer` — the five readings.
* `gathered` — the state behind the loop.
* `OncePerKind` — no kind of attribute occurs twice.

## Main results

* `parseState_eq` — **a report is folded into a state by the latest reading of each kind**.
* `attributes_order_independent` — **the order of the attributes and empty parts between
  them do not matter, and each kind touches its own fields only**.
-/

namespace Raydriver

open Latest

/-! ### The parts of a report -/

/-- The text stands between `<` and `>`. -/
def isEnclosed (stateStr : Text) : Bool :=
  startsWith "<".toList stateStr && decide (2 ≤ stateStr.length) && (stateStr.getLast? == some '>')

/-- The parts between the bars that are not empty. -/
def reportParts (stateStr : Text) : List Text :=
  if isEnclosed stateStr then
    (splitOn '|' stateStr.tail.dropLast).filter fun p => !p.isEmpty
  else []

/-- The first part of a report, its status. -/
def statusPartOf (stateStr : Text) : Option Text := (reportParts stateStr).head?

/-- The other parts of a report. -/
def attributesOf (stateStr : Text) : List Text := (reportParts stateStr).tail

/-- A report of the given parts. -/
def report (parts : List Text) : Text := '<' :: (List.intercalate ['|'] parts ++ ['>'])

theorem isEnclosed_iff {stateStr : Text} :
    isEnclosed stateStr = true ↔ ∃ inner, stateStr = '<' :: (inner ++ ['>']) := by
  constructor
  · intro h
    simp only [isEnclosed, startsWith, Bool.and_eq_true, decide_eq_true_eq, beq_iff_eq] at h
    obtain ⟨⟨hstart, hlen⟩, hlast⟩ := h
    cases stateStr with
    | nil => exact absurd hlen (by decide)
    | cons c t =>
      obtain rfl : '<' = c := by simpa using hstart
      have hne : t ≠ [] := by
        rintro rfl
        exact absurd hlen (by decide)
      rw [List.getLast?_cons, List.getLast?_eq_some_getLast hne, Option.getD_some,
        Option.some_inj] at hlast
      exact ⟨t.dropLast, by rw [← hlast, List.dropLast_append_getLast hne]⟩
  · rintro ⟨inner, rfl⟩
    have hlast : ('<' :: (inner ++ ['>'])).getLast? = some '>' := by
      rw [← List.cons_append, List.getLast?_append_of_ne_nil _ (List.cons_ne_nil _ _)]
      rfl
    simp [isEnclosed, startsWith, hlast]

/-! ### The five readings -/

/-- The machine position in an attribute. -/
def readMpos (attrib : Text) : Option Pos := parsePositionAttribute attrib "MPos".toList

/-- The work position in an attribute. -/
def readWpos (attrib : Text) : Option Pos := parsePositionAttribute attrib "WPos".toList

/-- The work offset in an attribute. -/
def readWco (attrib : Text) : Option Pos := parsePositionAttribute attrib "WCO".toList

/-- The feed rate in an attribute. -/
def readFeed (attrib : Text) : Option ℤ :=
  if startsWith "FS:".toList attrib then parseFeedRate attrib else none

/-- The free blocks and bytes in an attribute. -/
def readBuffer (attrib : Text) : Option (ℤ × ℤ) :=
  if startsWith "Bf:".toList attrib then parseBufferState attrib else none

/-- The labels of the attributes that are read. -/
def labels : List Text :=
  ["MPos:".toList, "WPos:".toList, "WCO:".toList, "FS:".toList, "Bf:".toList]

/-- No label is the head of another. -/
theorem labels_disjoint : ∀ p ∈ labels, ∀ q ∈ labels, p ≠ q → startsWith p q = false := by
  decide

/-- The two labels cannot both be at the head of an attribute. -/
theorem startsWith_disjoint {p q attrib : Text} (hpq : startsWith p q = false)
    (hqp : startsWith q p = false) (h : startsWith p attrib = true) :
    startsWith q attrib = false := by
  rw [startsWith, List.isPrefixOf_iff_prefix] at h
  rw [startsWith, Bool.eq_false_iff, ne_eq, List.isPrefixOf_iff_prefix] at hpq hqp ⊢
  intro hq
  rcases List.prefix_or_prefix_of_prefix h hq with hpre | hpre
  · exact hpq hpre
  · exact hqp hpre

theorem parsePosition_eq_none {attrib posType : Text}
    (h : startsWith (posType ++ ":".toList) attrib = false) :
    parsePositionAttribute attrib posType = none := by
  unfold parsePositionAttribute
  rw [h]
  rfl

/-- What a search finds was read somewhere. -/
theorem exists_of_search {α : Type} {read : Text → Option α} {a : α} : ∀ {t : Text},
    search read t = some a → ∃ u, read u = some a := by
  intro t
  induction t with
  | nil => exact fun h => ⟨[], h⟩
  | cons c t ih =>
    intro h
    cases hc : read (c :: t) with
    | some b =>
      rw [search, hc] at h
      exact ⟨c :: t, hc.trans h⟩
    | none =>
      rw [search, hc] at h
      exact ih h

theorem readPosition_ne_nil {t : Text} {vs : List ℚ} (h : readPosition t = some vs) :
    vs ≠ [] := by
  unfold readPosition at h
  split at h
  · obtain ⟨⟨v, r⟩, -, h⟩ := Option.bind_eq_some_iff.mp h
    simp only at h
    split at h <;> cases h
    exact List.cons_ne_nil _ _
  · cases h

/-- A position that parses holds known entries only, and at least one. -/
theorem parsePosition_known {attrib posType : Text} {p : Pos}
    (h : parsePositionAttribute attrib posType = some p) :
    ∃ v vs, p = some v :: vs ∧ allKnown p = true := by
  unfold parsePositionAttribute at h
  split_ifs at h with hs
  obtain ⟨vs, hvs, rfl⟩ := Option.map_eq_some_iff.mp h
  have hne : vs ≠ [] := by
    obtain ⟨u, hu⟩ := exists_of_search hvs
    exact readPosition_ne_nil hu
  cases vs with
  | nil => exact absurd rfl hne
  | cons v vs =>
    refine ⟨v, (if (v :: vs).length = 2 then vs ++ [0] else vs).map some, ?_, ?_⟩
    · split_ifs <;> rfl
    · rw [allKnown, List.all_eq_true]
      intro x hx
      obtain ⟨w, -, rfl⟩ := List.mem_map.mp hx
      rfl

/-! ### The loop over the attributes -/

theorem label_disjoint {p q a : Text} (hp : p ∈ labels) (hq : q ∈ labels) (hpq : p ≠ q)
    (h : startsWith p a = true) : startsWith q a = false :=
  startsWith_disjoint (labels_disjoint p hp q hq hpq) (labels_disjoint q hq p hp (Ne.symm hpq)) h

theorem readMpos_eq_none {a : Text} (h : startsWith "MPos:".toList a = false) :
    readMpos a = none := parsePosition_eq_none h

theorem readWpos_eq_none {a : Text} (h : startsWith "WPos:".toList a = false) :
    readWpos a = none := parsePosition_eq_none h

theorem readWco_eq_none {a : Text} (h : startsWith "WCO:".toList a = false) :
    readWco a = none := parsePosition_eq_none h

theorem readFeed_eq_none {a : Text} (h : startsWith "FS:".toList a = false) :
    readFeed a = none := by
  rw [readFeed, h]
  rfl

theorem readBuffer_eq_none {a : Text} (h : startsWith "Bf:".toList a = false) :
    readBuffer a = none := by
  rw [readBuffer, h]
  rfl

/-- One attribute changes what it is read as, and nothing else. -/
theorem applyAttribute_eq (r : ReportFold) (a : Text) :
    applyAttribute r a =
      { state := { r.state with
          machinePos := (readMpos a).getD r.state.machinePos
          workPos := (readWpos a).getD r.state.workPos
          wco := (readWco a).getD r.state.wco
          feedRate := (readFeed a).or r.state.feedRate
          bufferAvailable := ((readBuffer a).map Prod.fst).or r.state.bufferAvailable
          bufferRxAvailable := ((readBuffer a).map Prod.snd).or r.state.bufferRxAvailable }
        mposFound := r.mposFound || (readMpos a).isSome
        wposFound := r.wposFound || (readWpos a).isSome
        wcoFound := r.wcoFound || (readWco a).isSome } := by
  -- no attribute starts with two of the labels, so one branch at most applies
  have hno {p q : Text} (h : startsWith p a = true) (hp : p ∈ labels := by decide)
      (hq : q ∈ labels := by decide) (hpq : p ≠ q := by decide) : startsWith q a = false :=
    label_disjoint hp hq hpq h
  unfold applyAttribute
  rw [show parsePositionAttribute a "MPos".toList = readMpos a from rfl,
    show parsePositionAttribute a "WPos".toList = readWpos a from rfl,
    show parsePositionAttribute a "WCO".toList = readWco a from rfl]
  by_cases hm : startsWith "MPos:".toList a = true
  · rw [readWpos_eq_none (hno hm), readWco_eq_none (hno hm), readFeed_eq_none (hno hm),
      readBuffer_eq_none (hno hm), hno hm (q := "FS:".toList), hno hm (q := "Bf:".toList)]
    cases h : readMpos a with
    | none => simp
    | some p =>
      obtain ⟨v, vs, rfl, -⟩ := parsePosition_known h
      simp
  rw [Bool.not_eq_true] at hm
  rw [readMpos_eq_none hm]
  by_cases hw : startsWith "WPos:".toList a = true
  · rw [readWco_eq_none (hno hw), readFeed_eq_none (hno hw), readBuffer_eq_none (hno hw),
      hno hw (q := "FS:".toList), hno hw (q := "Bf:".toList)]
    cases h : readWpos a with
    | none => simp
    | some p =>
      obtain ⟨v, vs, rfl, -⟩ := parsePosition_known h
      simp
  rw [Bool.not_eq_true] at hw
  rw [readWpos_eq_none hw]
  by_cases ho : startsWith "WCO:".toList a = true
  · rw [readFeed_eq_none (hno ho), readBuffer_eq_none (hno ho), hno ho (q := "FS:".toList),
      hno ho (q := "Bf:".toList)]
    cases h : readWco a <;> simp
  rw [Bool.not_eq_true] at ho
  rw [readWco_eq_none ho]
  by_cases hf : startsWith "FS:".toList a = true
  · rw [readBuffer_eq_none (hno hf), readFeed, hf]
    cases h : parseFeedRate a <;> simp
  rw [Bool.not_eq_true] at hf
  rw [readFeed_eq_none hf, readBuffer, hf]
  by_cases hb : startsWith "Bf:".toList a = true
  · rw [hb]
    cases h : parseBufferState a <;> simp
  rw [Bool.not_eq_true] at hb
  rw [hb]
  simp

/-- The state behind the loop over the attributes. -/
def gathered (r : ReportFold) (attribs : List Text) : ReportFold where
  state := { r.state with
    machinePos := (latest readMpos attribs).getD r.state.machinePos
    workPos := (latest readWpos attribs).getD r.state.workPos
    wco := (latest readWco attribs).getD r.state.wco
    feedRate := (latest readFeed attribs).or r.state.feedRate
    bufferAvailable := ((latest readBuffer attribs).map Prod.fst).or r.state.bufferAvailable
    bufferRxAvailable := ((latest readBuffer attribs).map Prod.snd).or r.state.bufferRxAvailable }
  mposFound := r.mposFound || (latest readMpos attribs).isSome
  wposFound := r.wposFound || (latest readWpos attribs).isSome
  wcoFound := r.wcoFound || (latest readWco attribs).isSome

theorem foldl_applyAttribute_eq : ∀ (attribs : List Text) (r : ReportFold),
    attribs.foldl applyAttribute r = gathered r attribs := by
  intro attribs
  induction attribs with
  | nil => intro r; simp [gathered]
  | cons a attribs ih =>
    intro r
    rw [List.foldl_cons, ih, applyAttribute_eq]
    simp only [gathered, latest_cons, Option.getD_or, Option.isSome_or, Option.or_assoc,
      Option.map_or]
    ac_rfl

/-- The base state with the status of the report, if it has one. -/
def withStatus (stateStr : Text) (default : DeviceState) : DeviceState :=
  (statusPartOf stateStr).elim default fun part => applyStatusPart part default

/-- **A report is folded into a state by the latest reading of each kind.** -/
theorem parseState_eq {stateStr : Text} (h : isEnclosed stateStr = true) (default : DeviceState)
    (inches : Bool) :
    parseState stateStr default inches
      = parseState.finish inches
          (gathered { state := withStatus stateStr default } (attributesOf stateStr)) := by
  have hparts : (splitOn '|' stateStr.tail.dropLast).filter (fun p => !p.isEmpty)
      = reportParts stateStr := by
    rw [reportParts, if_pos h]
  rw [isEnclosed] at h
  unfold parseState withStatus statusPartOf attributesOf
  rw [if_pos h]
  dsimp only
  rw [hparts, ← foldl_applyAttribute_eq]
  cases reportParts stateStr with
  | nil => rfl
  | cons part attribs => rfl

theorem parseState_of_not_enclosed {stateStr : Text} (h : isEnclosed stateStr = false)
    (default : DeviceState) (inches : Bool) : parseState stateStr default inches = default := by
  rw [isEnclosed] at h
  unfold parseState
  rw [h]
  rfl

/-! ### Reports put together -/

theorem splitOn_of_notMem {sep : Char} {p : Text} (h : sep ∉ p) : splitOn sep p = [p] := by
  induction p with
  | nil => rfl
  | cons c p ih =>
    rw [List.mem_cons, not_or] at h
    rw [splitOn, if_neg (Ne.symm h.1), ih h.2]

theorem splitOn_append {sep : Char} {p : Text} (h : sep ∉ p) (t : Text) :
    splitOn sep (p ++ sep :: t) = p :: splitOn sep t := by
  induction p with
  | nil => rw [List.nil_append, splitOn, if_pos rfl]
  | cons c p ih =>
    rw [List.mem_cons, not_or] at h
    rw [List.cons_append, splitOn, if_neg (Ne.symm h.1), ih h.2]

/-- Parts without bars are cut apart again. -/
theorem splitOn_intercalate {sep : Char} : ∀ {parts : List Text}, (∀ p ∈ parts, sep ∉ p) →
    parts ≠ [] → splitOn sep (List.intercalate [sep] parts) = parts := by
  intro parts
  induction parts with
  | nil => exact fun _ h => absurd rfl h
  | cons p parts ih =>
    intro h _
    cases parts with
    | nil =>
      rw [List.intercalate_singleton]
      exact splitOn_of_notMem (h p List.mem_cons_self)
    | cons q parts =>
      rw [List.intercalate_cons_of_ne_nil (List.cons_ne_nil q parts), List.append_assoc]
      rw [List.singleton_append, splitOn_append (h p List.mem_cons_self),
        ih (fun p hp => h p (List.mem_cons_of_mem _ hp)) (List.cons_ne_nil q parts)]

theorem isEnclosed_report (parts : List Text) : isEnclosed (report parts) = true :=
  isEnclosed_iff.mpr ⟨_, rfl⟩

/-- The parts of a report are those it was put together from, without the empty ones. -/
theorem reportParts_report {parts : List Text} (h : ∀ p ∈ parts, '|' ∉ p) :
    reportParts (report parts) = parts.filter fun p => !p.isEmpty := by
  rw [reportParts, if_pos (isEnclosed_report parts), report, List.tail_cons,
    List.dropLast_concat]
  by_cases hne : parts = []
  · subst hne
    rfl
  · rw [splitOn_intercalate h hne]

/-! ### Order and frame -/

/-- None of the kinds of attributes that are read occurs twice. -/
def OncePerKind (attribs : List Text) : Prop :=
  ∀ label ∈ labels, attribs.countP (startsWith label) ≤ 1

instance (attribs : List Text) : Decidable (OncePerKind attribs) :=
  inferInstanceAs (Decidable (∀ label ∈ labels, _))

/-- A kind that occurs at most once is read at most once, so the order of the attributes
does not matter to it. -/
theorem latest_of_perm {α : Type} {read : Text → Option α} {label : Text} {attribs attribs' : List Text}
    (hread : ∀ a, startsWith label a = false → read a = none) (hlabel : label ∈ labels)
    (honce : OncePerKind attribs) (hp : attribs.Perm attribs') :
    latest read attribs = latest read attribs' := by
  refine latest_perm hp (le_trans ?_ (honce label hlabel))
  refine List.countP_mono_left fun a _ hsome => ?_
  by_contra hno
  rw [hread a (Bool.eq_false_iff.mpr hno)] at hsome
  exact absurd hsome Bool.false_ne_true

/-- **The state behind the loop does not depend on the order of the attributes.** -/
theorem gathered_perm {attribs attribs' : List Text} (honce : OncePerKind attribs)
    (hp : attribs.Perm attribs') (r : ReportFold) : gathered r attribs = gathered r attribs' := by
  have hm : latest readMpos attribs = latest readMpos attribs' :=
    latest_of_perm (fun _ => readMpos_eq_none) (by decide) honce hp
  have hw : latest readWpos attribs = latest readWpos attribs' :=
    latest_of_perm (fun _ => readWpos_eq_none) (by decide) honce hp
  have ho : latest readWco attribs = latest readWco attribs' :=
    latest_of_perm (fun _ => readWco_eq_none) (by decide) honce hp
  have hf : latest readFeed attribs = latest readFeed attribs' :=
    latest_of_perm (fun _ => readFeed_eq_none) (by decide) honce hp
  have hb : latest readBuffer attribs = latest readBuffer attribs' :=
    latest_of_perm (fun _ => readBuffer_eq_none) (by decide) honce hp
  unfold gathered
  rw [hm, hw, ho, hf, hb]

/-- The status is an alarm with a code behind the colon. -/
def StatesAlarm (stateStr : Text) : Prop :=
  ∃ name code, statusPartOf stateStr = some (name ++ ':' :: code) ∧ ':' ∉ name ∧
    DeviceStatus.fromName name = .alarm

theorem parseStatusPart_code {part code : Text} (h : (parseStatusPart part).2 = some code) :
    ∃ name, part = name ++ ':' :: code ∧ ':' ∉ name ∧ DeviceStatus.fromName name = .alarm := by
  have hsplit := List.takeWhile_append_dropWhile (p := fun c => c != ':') (l := part)
  have hhead : ∀ c rest, part.dropWhile (fun c => c != ':') = c :: rest → c = ':' := by
    intro c rest hrest
    have hne : part.dropWhile (fun c => c != ':') ≠ [] := by
      rw [hrest]
      exact List.cons_ne_nil c rest
    simpa [hrest] using List.head_dropWhile_not (fun c => c != ':') hne
  have hname : ∀ c ∈ part.takeWhile fun c => c != ':', c ≠ ':' := by
    intro c hc
    simpa using List.mem_takeWhile_imp hc
  simp only [parseStatusPart] at h
  split_ifs at h with halarm
  generalize part.takeWhile (fun c => c != ':') = name at *
  generalize part.dropWhile (fun c => c != ':') = rest at *
  subst hsplit
  rw [List.drop_left] at h
  cases rest with
  | nil => cases h
  | cons c rest =>
    obtain rfl := hhead c rest rfl
    rw [List.tail?_cons, Option.some_inj] at h
    exact ⟨name, by rw [h], fun hmem => hname ':' hmem rfl, halarm⟩

/-- A report changes the error only if it states an alarm with a code. -/
theorem withStatus_error {stateStr : Text} {default : DeviceState}
    (h : (withStatus stateStr default).error ≠ default.error) : StatesAlarm stateStr := by
  unfold withStatus at h
  cases hpart : statusPartOf stateStr with
  | none =>
    rw [hpart] at h
    exact absurd rfl h
  | some part =>
    rw [hpart, Option.elim_some, applyStatusPart] at h
    dsimp only at h
    cases hcode : (parseStatusPart part).2 with
    | none =>
      rw [hcode] at h
      exact absurd rfl h
    | some code =>
      obtain ⟨name, rfl, hname⟩ := parseStatusPart_code hcode
      exact ⟨name, code, hpart, hname⟩

theorem applyStatusPart_eq (part : Text) (d : DeviceState) :
    applyStatusPart part d = { d with
      status := (applyStatusPart part d).status
      error := (applyStatusPart part d).error } := by
  unfold applyStatusPart
  dsimp only
  split <;> rfl

/-- The status of a report changes the status and the error. -/
theorem withStatus_eq (stateStr : Text) (d : DeviceState) :
    withStatus stateStr d = { d with
      status := (withStatus stateStr d).status
      error := (withStatus stateStr d).error } := by
  unfold withStatus
  cases statusPartOf stateStr with
  | none => rfl
  | some part => exact applyStatusPart_eq part d

theorem of_readFeed {a : Text} {feed : ℤ} (h : readFeed a = some feed) :
    startsWith "FS:".toList a = true ∧ parseFeedRate a = some feed := by
  unfold readFeed at h
  split_ifs at h with hs
  exact ⟨hs, h⟩

theorem of_readBuffer {a : Text} {b : ℤ × ℤ} (h : readBuffer a = some b) :
    startsWith "Bf:".toList a = true ∧ parseBufferState a = some b := by
  unfold readBuffer at h
  split_ifs at h with hs
  exact ⟨hs, h⟩

/-- **The attributes of a report may come in any order, with empty parts between them, and
touch their own fields only.** -/
theorem attributes_order_independent (default : DeviceState) (inches : Bool) :
    (∀ (statusPart : Text) (attribs attribs' parts parts' : List Text), OncePerKind attribs →
      attribs.Perm attribs' → (∀ p ∈ parts, '|' ∉ p) → (∀ p ∈ parts', '|' ∉ p) →
      parts.filter (fun p => !p.isEmpty) = statusPart :: attribs →
      parts'.filter (fun p => !p.isEmpty) = statusPart :: attribs' →
      parseState (report parts) default inches = parseState (report parts') default inches) ∧
    ∀ stateStr : Text,
      let s := parseState stateStr default inches
      (s.feedRate ≠ default.feedRate →
        ∃ a ∈ attributesOf stateStr, startsWith "FS:".toList a = true ∧
          ∃ feed, parseFeedRate a = some feed ∧ s.feedRate = some feed) ∧
      (s.bufferAvailable ≠ default.bufferAvailable ∨
          s.bufferRxAvailable ≠ default.bufferRxAvailable →
        ∃ a ∈ attributesOf stateStr, startsWith "Bf:".toList a = true ∧
          ∃ available rxAvailable, parseBufferState a = some (available, rxAvailable) ∧
            s.bufferAvailable = some available ∧ s.bufferRxAvailable = some rxAvailable) ∧
      (s.error ≠ default.error → StatesAlarm stateStr) ∧
      s.spindleSpeed = default.spindleSpeed ∧
      ((¬ ∃ inner, stateStr = '<' :: (inner ++ ['>'])) → s = default) := by
  constructor
  · intro statusPart attribs attribs' parts parts' honce hp hbars hbars' hparts hparts'
    -- both reports have the same status part, and the fold does not see the order
    rw [parseState_eq (isEnclosed_report parts), parseState_eq (isEnclosed_report parts'),
      withStatus, withStatus, statusPartOf, statusPartOf, attributesOf, attributesOf,
      reportParts_report hbars, reportParts_report hbars', hparts, hparts', List.tail_cons,
      List.tail_cons, List.head?_cons, List.head?_cons, gathered_perm honce hp]
  intro stateStr
  cases hs : isEnclosed stateStr with
  | false =>
    rw [parseState_of_not_enclosed hs]
    simp
  | true =>
    rw [parseState_eq hs]
    -- the status part writes the status and the error only
    have hframe := withStatus_eq stateStr default
    refine ⟨?_, ?_, fun h => withStatus_error h, ?_,
      fun h => absurd (isEnclosed_iff.mp hs) h⟩
    · show (latest readFeed (attributesOf stateStr)).or (withStatus stateStr default).feedRate
        ≠ default.feedRate → _
      rw [hframe]
      cases hf : latest readFeed (attributesOf stateStr) with
      | none => exact fun h => absurd rfl h
      | some feed =>
        intro _
        obtain ⟨a, ha, hread⟩ := exists_of_latest hf
        obtain ⟨hstart, hparse⟩ := of_readFeed hread
        refine ⟨a, ha, hstart, feed, hparse, ?_⟩
        show (latest readFeed (attributesOf stateStr)).or _ = _
        rw [hf, Option.some_or]
    · show ((latest readBuffer (attributesOf stateStr)).map Prod.fst).or
          (withStatus stateStr default).bufferAvailable ≠ default.bufferAvailable ∨
        ((latest readBuffer (attributesOf stateStr)).map Prod.snd).or
          (withStatus stateStr default).bufferRxAvailable ≠ default.bufferRxAvailable → _
      rw [hframe]
      cases hb : latest readBuffer (attributesOf stateStr) with
      | none => exact fun h => absurd h (by simp)
      | some b =>
        intro _
        obtain ⟨a, ha, hread⟩ := exists_of_latest hb
        obtain ⟨hstart, hparse⟩ := of_readBuffer hread
        refine ⟨a, ha, hstart, b.1, b.2, hparse, ?_, ?_⟩
        · show ((latest readBuffer (attributesOf stateStr)).map Prod.fst).or _ = _
          rw [hb, Option.map_some, Option.some_or]
        · show ((latest readBuffer (attributesOf stateStr)).map Prod.snd).or _ = _
          rw [hb, Option.map_some, Option.some_or]
    · show (withStatus stateStr default).spindleSpeed = default.spindleSpeed
      rw [hframe]

/-- Two attributes the other way round, and empty parts before the status and between them. -/
theorem attributes_order_independent_idle :
    parseState (report ["Idle".toList, "MPos:1,2,3".toList, [], "FS:5,0".toList]) {} false
      = parseState (report [[], "Idle".toList, "FS:5,0".toList, "MPos:1,2,3".toList]) {} false :=
  (attributes_order_independent {} false).1 "Idle".toList
    ["MPos:1,2,3".toList, "FS:5,0".toList] ["FS:5,0".toList, "MPos:1,2,3".toList] _ _
    (by decide) (List.Perm.swap _ _ _) (by decide) (by decide) (by decide) (by decide)

end Raydriver
