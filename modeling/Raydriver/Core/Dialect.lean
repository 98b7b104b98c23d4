import Raydriver.Core.Template

/-!
# Dialects

The command templates of a machine, as the caller hands them over, and the work offset command,
which loses its Z word for a machine without a Z axis.

## Main definitions

* `Templates`, `Templates.fromMap`, `parseDialect` — the templates and where they come from.
* `replaceText` — `str::replace`.
* `formatWcsOffset` — the work offset command.
* `Plain` — a text in the placeholder language that makes no use of `z`.
* `DropsZ` — the command without a Z value has no Z word.

## Main results

* `replaceText_single` — replacing a text that occurs once.
* `dropsZ_iff` — the Z word is dropped exactly when it has no format spec.
-/

namespace Raydriver

/-! ### Templates -/

/-- `Dialect`: the templates of the interactive commands, and the commands that end a job. -/
structure Templates where
  homeAll : Text := "$H".toList
  homeAxis : Text := "$H{axis_letter}".toList
  moveTo : Text := "$J=G90 G21 F{speed} X{x} Y{y}".toList
  jog : Text := "$J=G91 G21 F{speed}".toList
  clearAlarm : Text := "$X".toList
  laserOn : Text := "M4 S{power:.0f}".toList
  laserOff : Text := "M5".toList
  focusLaserOn : Text := "M3 S{power:.0f}".toList
  toolChange : Text := "T{tool_number}".toList
  setWcsOffset : Text := "G10 L2 P{p_num} X{x} Y{y} Z{z}".toList
  probeCycle : Text := "G38.2 {axis_letter}{max_travel} F{feed_rate}".toList
  /-- Resolved safety-off commands, sent after a cancel. -/
  safetyOffCommands : List Text := ["M5".toList]
  /-- Optional additional emergency stop command. -/
  emergencyStop : Option Text := none
  deriving DecidableEq, Repr

/-- Build from a template dict keyed by the field names.  Missing keys fall back to the default
template. -/
def Templates.fromMap (map : Text → Option Text) : Templates where
  homeAll := (map "home_all".toList).getD ({} : Templates).homeAll
  homeAxis := (map "home_axis".toList).getD ({} : Templates).homeAxis
  moveTo := (map "move_to".toList).getD ({} : Templates).moveTo
  jog := (map "jog".toList).getD ({} : Templates).jog
  clearAlarm := (map "clear_alarm".toList).getD ({} : Templates).clearAlarm
  laserOn := (map "laser_on".toList).getD ({} : Templates).laserOn
  laserOff := (map "laser_off".toList).getD ({} : Templates).laserOff
  focusLaserOn := (map "focus_laser_on".toList).getD ({} : Templates).focusLaserOn
  toolChange := (map "tool_change".toList).getD ({} : Templates).toolChange
  setWcsOffset := (map "set_wcs_offset".toList).getD ({} : Templates).setWcsOffset
  probeCycle := (map "probe_cycle".toList).getD ({} : Templates).probeCycle
  emergencyStop := map "emergency_stop".toList

/-- A value of a Python dict: a text, a list of texts, or anything else. -/
inductive PyValue where
  | str (t : Text)
  | strs (ts : List Text)
  | other
  deriving DecidableEq, Repr

/-- One item of a dict: a text goes into the map, and the safety-off commands are a list of
texts.  Any other key, and any other safety-off commands, are a `TypeError`. -/
def readItem (acc : (Text → Option Text) × Option (List Text)) :
    Option Text × PyValue → Option ((Text → Option Text) × Option (List Text))
  | (none, _) => none
  | (some key, value) =>
    if key = "safety_off_commands".toList then
      match value with
      | .strs commands => some (acc.1, some commands)
      | _ => none
    else
      match value with
      | .str t => some (fun k => if k = key then some t else acc.1 k, acc.2)
      | _ => some acc

/-- `parse_dialect`: the templates of a dialect given from Python. -/
def parseDialect (dict : List (Option Text × PyValue)) : Option Templates :=
  (dict.foldlM readItem (fun _ => none, none)).map fun acc =>
    match acc.2 with
    | some commands => { Templates.fromMap acc.1 with safetyOffCommands := commands }
    | none => Templates.fromMap acc.1

/-! ### Replacing a text -/

/-- The passes of `str::replace`, with the characters of the last match still to be skipped. -/
def replaceFrom (pat rep : Text) : ℕ → Text → Text
  | _, [] => []
  | k + 1, _ :: t => replaceFrom pat rep k t
  | 0, c :: t =>
    if pat.isPrefixOf (c :: t) then rep ++ replaceFrom pat rep (pat.length - 1) t
    else c :: replaceFrom pat rep 0 t

/-- `str::replace`, for a pattern that is not empty. -/
def replaceText (pat rep t : Text) : Text := replaceFrom pat rep 0 t

theorem replaceFrom_skip (pat rep : Text) : ∀ (u t : Text),
    replaceFrom pat rep u.length (u ++ t) = replaceFrom pat rep 0 t := by
  intro u
  induction u with
  | nil => exact fun _ => rfl
  | cons c u ih => exact fun t => ih t

/-- A match is replaced. -/
theorem replaceText_match {pat : Text} (hpat : pat ≠ []) (rep t : Text) :
    replaceText pat rep (pat ++ t) = rep ++ replaceText pat rep t := by
  obtain ⟨c, p, rfl⟩ := List.exists_cons_of_ne_nil hpat
  have hprefix : (c :: p).isPrefixOf (c :: (p ++ t)) = true :=
    List.isPrefixOf_iff_prefix.mpr (List.prefix_append (c :: p) t)
  rw [List.cons_append, replaceText, replaceFrom, if_pos hprefix]
  exact congrArg (rep ++ ·) (replaceFrom_skip (c :: p) rep p t)

/-- Up to the first match a text is copied. -/
theorem replaceText_append {pat rep : Text} : ∀ {u t : Text},
    (∀ v w, u = v ++ w → w ≠ [] → ¬ pat <+: w ++ t) →
      replaceText pat rep (u ++ t) = u ++ replaceText pat rep t := by
  intro u
  induction u with
  | nil => exact fun _ => rfl
  | cons c u ih =>
    intro t h
    have hc : ¬ pat.isPrefixOf (c :: (u ++ t)) = true := by
      rw [List.isPrefixOf_iff_prefix]
      exact h [] (c :: u) rfl (List.cons_ne_nil _ _)
    have hu := ih (t := t) fun v w hvw hw => h (c :: v) w (by rw [hvw, List.cons_append]) hw
    rw [List.cons_append, replaceText, replaceFrom, if_neg hc, List.cons_append]
    exact congrArg (c :: ·) hu

/-- A text without a match is copied. -/
theorem replaceText_of_not_contained {pat rep u : Text} (h : ¬ pat <:+: u) :
    replaceText pat rep u = u := by
  have hu : ∀ v w, u = v ++ w → w ≠ [] → ¬ pat <+: w ++ [] := by
    rintro v w rfl - ⟨s, hs⟩
    rw [List.append_nil] at hs
    exact h ⟨v, s, by rw [List.append_assoc, hs]⟩
  have hcopy : replaceText pat rep (u ++ []) = u ++ replaceText pat rep [] :=
    replaceText_append hu
  have hnil : replaceText pat rep [] = [] := rfl
  rwa [List.append_nil, hnil, List.append_nil] at hcopy

/-- A match that would have to reach over a character it does not hold ends before it. -/
theorem prefix_of_notMem {d : Char} : ∀ {pat w s : Text}, d ∉ pat → pat <+: w ++ d :: s →
    pat <+: w := by
  intro pat
  induction pat with
  | nil => exact fun _ _ => List.nil_prefix
  | cons c pat ih =>
    intro w s hd h
    rw [List.mem_cons, not_or] at hd
    cases w with
    | nil => exact absurd (List.cons_prefix_cons.mp h).1.symm hd.1
    | cons c' w =>
      rw [List.cons_append, List.cons_prefix_cons] at h
      obtain ⟨rfl, h⟩ := h
      exact List.cons_prefix_cons.mpr ⟨rfl, ih hd.2 h⟩

/-- A pattern whose first character stands nowhere else in it overlaps no copy of itself, so one
copy between two texts without any is the one that is replaced. -/
theorem replaceText_single {c : Char} {p rep a b : Text} (hc : c ∉ p) (ha : ¬ c :: p <:+: a)
    (hb : ¬ c :: p <:+: b) :
    replaceText (c :: p) rep (a ++ (c :: p ++ b)) = a ++ rep ++ b := by
  have hfirst : ∀ v w, a = v ++ w → w ≠ [] → ¬ c :: p <+: w ++ (c :: p ++ b) := by
    rintro v w rfl hw hpre
    obtain ⟨d, w, rfl⟩ := List.exists_cons_of_ne_nil hw
    rw [List.cons_append, List.cons_append, List.cons_prefix_cons] at hpre
    obtain ⟨rfl, hpre⟩ := hpre
    have hin : c :: p <+: c :: w := List.cons_prefix_cons.mpr ⟨rfl, prefix_of_notMem hc hpre⟩
    exact ha (hin.isInfix.trans (List.suffix_append v _).isInfix)
  rw [replaceText_append hfirst, replaceText_match (List.cons_ne_nil _ _),
    replaceText_of_not_contained hb, List.append_assoc]

/-! ### The work offset command -/

/-- `Result::expect`. -/
def Outcome.expect {α : Type*} (debug : Text → Text) (message : Text) : Outcome α → Outcome α
  | .ok a => .ok a
  | .err e => .panics (message ++ ": ".toList ++ debug e)
  | .panics e => .panics e

section Wcs

variable {F : Type} (fmt : NumberFormat F)

/-- The template without its Z word. -/
def withoutZ (template : Text) : Text :=
  trim (replaceText "Z{z}".toList " ".toList (replaceText " Z{z}".toList [] template))

/-- The values of the work offset template. -/
def wcsArgs (pNum : ℤ) (x y z : F) : List (Text × Arg F) :=
  [("p_num".toList, .int pNum), ("x".toList, .length x), ("y".toList, .length y),
    ("z".toList, .length z)]

/-- Format the `set_wcs_offset` template, dropping the Z word when `z` is `None` (machines
without a Z axis). -/
def Templates.formatWcsOffset (d : Templates) (pNum : ℤ) (x y : F) (z : Option F) : Outcome Text :=
  let template := if z.isNone then withoutZ d.setWcsOffset else d.setWcsOffset
  (formatTemplate fmt template (wcsArgs pNum x y (z.getD fmt.zero))).expect fmt.debug
    "valid template".toList

end Wcs

/-! ### The placeholder language -/

/-- `.Nf`. -/
def supportedSpec : Option Text → Prop
  | none => True
  | some spec => ∃ n : Text, n ≠ [] ∧ (∀ c ∈ n, (digitValue c).isSome) ∧ spec = '.' :: n ++ ['f']

instance : DecidablePred supportedSpec
  | none => .isTrue trivial
  | some spec =>
    decidable_of_iff (spec.tail.dropLast ≠ [] ∧
      (spec.tail.dropLast.all fun c => (digitValue c).isSome) = true ∧
      spec = '.' :: spec.tail.dropLast ++ ['f']) <| by
        rw [List.all_eq_true]
        constructor
        · exact fun h => ⟨_, h⟩
        · rintro ⟨n, hne, hn, rfl⟩
          simpa using ⟨hne, hn⟩

/-- A character, or a placeholder of the work offset template other than `z`. -/
def Piece.plain : Piece → Prop
  | .lit _ => True
  | .field name spec =>
    name ∈ ["p_num".toList, "x".toList, "y".toList] ∧ supportedSpec spec

instance : DecidablePred Piece.plain
  | .lit _ => .isTrue trivial
  | .field _ _ => inferInstanceAs (Decidable (_ ∧ _))

/-- A text in the placeholder language that makes no use of `z`. -/
structure Plain (t : Text) : Prop where
  closed : (scan none t).2 = none
  pieces : ∀ p ∈ (scan none t).1, p.plain

/-- `Z{z}` or `Z{z:.Nf}`. -/
def zWord (spec : Option Text) : Text :=
  "Z\x7bz".toList ++ (match spec with
    | none => []
    | some spec => ':' :: spec) ++ "\x7d".toList

/-- A placeholder is its name, and its spec behind a colon. -/
theorem nameAndSpec_eq (p : Text) :
    p = (nameAndSpec p).1 ++ ((nameAndSpec p).2.map (':' :: ·)).getD [] := by
  rw [nameAndSpec]
  cases h : splitOnce ':' p with
  | none => simp
  | some q => exact (splitOnce_eq_some h).1

/-- A spec is made of digits, a point and an `f`. -/
theorem supportedSpec.notMem {spec : Text} (h : supportedSpec (some spec)) {c : Char}
    (hc : digitValue c = none ∧ c ≠ '.' ∧ c ≠ 'f') : c ∉ spec := by
  obtain ⟨n, -, hn, rfl⟩ := h
  intro hmem
  have hin : c ∈ n := by simpa [hc.2.1, hc.2.2] using hmem
  have := hn c hin
  rw [hc.1] at this
  cases this

/-- The placeholder of a plain piece holds no brace, and is not `z`. -/
theorem Piece.plain.placeholder {p : Text} (h : (Piece.ofPlaceholder p).plain) :
    '{' ∉ p ∧ p ≠ ['z'] := by
  obtain ⟨hname, hspec⟩ := h
  have hbrace : ∀ n ∈ ["p_num".toList, "x".toList, "y".toList], '{' ∉ n ∧ n ≠ ['z'] := by decide
  constructor
  · rw [nameAndSpec_eq p, List.mem_append, not_or]
    refine ⟨(hbrace _ hname).1, ?_⟩
    cases hs : (nameAndSpec p).2 with
    | none => simp
    | some spec =>
      rw [hs] at hspec
      simpa using hspec.notMem (by decide)
  · rintro rfl
    exact absurd rfl (hbrace _ hname).2

/-- The placeholder `{z}`. -/
def hole : Text := ['{', 'z', '}']

/-- A placeholder `{z}` in a text is, or ends, a placeholder of it. -/
theorem exists_placeholder {t : Text} (h : hole <:+: t) :
    ∃ p, Piece.ofPlaceholder p ∈ (scan none t).1 ∧ (p = ['z'] ∨ '{' ∈ p) := by
  obtain ⟨u, v, rfl⟩ := h
  rw [List.append_assoc, scan_append]
  cases hst : (scan none u).2 with
  | none =>
    refine ⟨['z'], List.mem_append_right _ ?_, .inl rfl⟩
    exact List.mem_cons_self
  | some p =>
    refine ⟨p ++ ['{', 'z'], List.mem_append_right _ ?_, .inr (by simp)⟩
    have hscan : scan (some p) (hole ++ v) = scan (some (p ++ ['{', 'z'])) ('}' :: v) := by
      simp [hole, scan]
    rw [hscan, scan, if_pos rfl]
    exact List.mem_cons_self

/-- A plain text holds no `{z}`. -/
theorem Plain.not_infix {t : Text} (h : Plain t) : ¬ hole <:+: t := by
  intro hz
  obtain ⟨p, hmem, hp⟩ := exists_placeholder hz
  obtain ⟨hbrace, hne⟩ := (h.pieces _ hmem).placeholder
  exact hp.elim hne hbrace

theorem Plain.append {a b : Text} (ha : Plain a) (hb : Plain b) : Plain (a ++ b) := by
  have hscan := scan_append b a none
  rw [ha.closed] at hscan
  refine ⟨by rw [hscan, hb.closed], fun p hp => ?_⟩
  rw [hscan, List.mem_append] at hp
  exact hp.elim (ha.pieces p) (hb.pieces p)

theorem Plain.of_append {a w : Text} (h : Plain (a ++ w)) (hw : '}' ∉ w) : Plain a := by
  obtain ⟨hclosed, hpieces⟩ := h
  rw [scan_append] at hclosed hpieces
  refine ⟨?_, fun p hp => hpieces p (List.mem_append_left _ hp)⟩
  cases hst : (scan none a).2 with
  | none => rfl
  | some p =>
    rw [hst, scan_open p hw] at hclosed
    cases hclosed

theorem Plain.not_word {t : Text} (h : Plain t) : ¬ 'Z' :: hole <:+: t := fun hz =>
  h.not_infix ((List.suffix_cons 'Z' hole).isInfix.trans hz)

theorem Plain.not_spaced {t : Text} (h : Plain t) : ¬ ' ' :: 'Z' :: hole <:+: t := fun hz =>
  h.not_word ((List.suffix_cons ' ' ('Z' :: hole)).isInfix.trans hz)

/-- Where no space stands before the word, no text is the word behind a space. -/
theorem not_infix_spaced {a b : Text} (ha : Plain a) (hb : Plain b)
    (hend : ∀ a', a ≠ a' ++ [' ']) : ¬ ' ' :: 'Z' :: hole <:+: a ++ ('Z' :: hole ++ b) := by
  rintro ⟨u, v, h⟩
  rw [List.append_assoc] at h
  rcases List.append_eq_append_iff.mp h with ⟨e, rfl, he⟩ | ⟨e, rfl, he⟩
  · -- the match starts in `a`: at its last character, or its placeholder lies in `a`
    rcases e with _ | ⟨c, _ | ⟨d, e⟩⟩
    · cases he
    · obtain ⟨rfl, -⟩ := List.cons_eq_cons.mp he
      exact hend u rfl
    · obtain ⟨-, he⟩ := List.cons_eq_cons.mp he
      obtain ⟨-, he⟩ := List.cons_eq_cons.mp he
      have hpre : hole <+: e ++ 'Z' :: (hole ++ b) := ⟨v, he⟩
      have hin := prefix_of_notMem (by decide) hpre
      exact ha.not_infix (hin.isInfix.trans ⟨u ++ [c, d], [], by simp⟩)
  · -- it starts behind the word, which holds no space
    have hpre : 'Z' :: hole <+: e ++ ' ' :: ('Z' :: hole ++ v) := ⟨b, he⟩
    obtain ⟨e, rfl⟩ := prefix_of_notMem (by decide) hpre
    rw [List.append_assoc, List.append_cancel_left_eq] at he
    exact hb.not_spaced ⟨e, v, by rw [he, List.append_assoc]⟩

/-- The word goes, with the space before it or for a space in its place. -/
theorem withoutZ_word {a b : Text} (ha : Plain a) (hb : Plain b) :
    (∃ a', a = a' ++ [' '] ∧ withoutZ (a ++ (zWord none ++ b)) = trim (a' ++ b)) ∨
      withoutZ (a ++ (zWord none ++ b)) = trim (a ++ [' '] ++ b) := by
  have hw (t : Text) : withoutZ t =
      trim (replaceText ('Z' :: hole) [' '] (replaceText (' ' :: 'Z' :: hole) [] t)) := rfl
  have hword : zWord none = 'Z' :: hole := rfl
  rw [hw, hword]
  by_cases hend : ∃ a', a = a' ++ [' ']
  · obtain ⟨a', rfl⟩ := hend
    have ha' : Plain a' := ha.of_append (by decide)
    have hfirst : replaceText (' ' :: 'Z' :: hole) [] (a' ++ (' ' :: 'Z' :: hole ++ b)) =
        a' ++ [] ++ b := replaceText_single (by decide) ha'.not_spaced hb.not_spaced
    have hsecond := @replaceText_of_not_contained _ [' '] _ (ha'.append hb).not_word
    refine .inl ⟨a', rfl, ?_⟩
    rw [List.append_nil] at hfirst
    rw [List.append_assoc, List.singleton_append, ← List.cons_append, hfirst, hsecond]
  · rw [not_exists] at hend
    have hsecond : replaceText ('Z' :: hole) [' '] (a ++ ('Z' :: hole ++ b)) =
        a ++ [' '] ++ b := replaceText_single (by decide) ha.not_word hb.not_word
    refine .inr ?_
    rw [replaceText_of_not_contained (not_infix_spaced ha hb hend), hsecond]

/-- The pieces of a Z word. -/
theorem scan_zWord {spec : Option Text} (hspec : supportedSpec spec) :
    scan none (zWord spec) = ([.lit 'Z', .field ['z'] spec], none) := by
  cases spec with
  | none => rfl
  | some spec =>
    have hclosed : '}' ∉ "z:".toList ++ spec := by
      rw [List.mem_append, not_or]
      exact ⟨by decide, hspec.notMem (by decide)⟩
    have hsplit : nameAndSpec ("z:".toList ++ spec) = (['z'], some spec) := rfl
    have hword : zWord (some spec) = "Z\x7b".toList ++ (("z:".toList ++ spec) ++ ['}']) := by
      simp [zWord]
    have hopen : scan none "Z\x7b".toList = ([.lit 'Z'], some []) := rfl
    have hlast (p : Text) : scan (some p) ['}'] = ([.ofPlaceholder p], none) := by
      rw [scan, if_pos rfl]
      rfl
    rw [hword, scan_append, hopen, scan_append, scan_open _ hclosed, hlast]
    simp only [List.nil_append, Piece.ofPlaceholder, hsplit]
    rfl

/-- The pieces of a plain text around a Z word. -/
theorem scan_around {a b : Text} {spec : Option Text} (ha : Plain a) (hb : Plain b)
    (hspec : supportedSpec spec) :
    scan none (a ++ (zWord spec ++ b)) =
      ((scan none a).1 ++ (.lit 'Z' :: .field ['z'] spec :: (scan none b).1), none) := by
  rw [scan_append, ha.closed, scan_append, scan_zWord hspec, hb.closed]
  rfl

/-- A word with a format spec stays. -/
theorem withoutZ_spec {a b spec : Text} (ha : Plain a) (hb : Plain b)
    (hspec : supportedSpec (some spec)) :
    withoutZ (a ++ (zWord (some spec) ++ b)) = trim (a ++ (zWord (some spec) ++ b)) := by
  have hw (t : Text) : withoutZ t =
      trim (replaceText ('Z' :: hole) [' '] (replaceText (' ' :: 'Z' :: hole) [] t)) := rfl
  have hnone : ¬ hole <:+: a ++ (zWord (some spec) ++ b) := by
    intro hz
    obtain ⟨p, hmem, hp⟩ := exists_placeholder hz
    have hbad : p = ['z'] ∨ '{' ∈ p → ¬ (Piece.ofPlaceholder p).plain := fun hp h =>
      hp.elim h.placeholder.2 h.placeholder.1
    rw [scan_around ha hb hspec, List.mem_append, List.mem_cons, List.mem_cons] at hmem
    rcases hmem with hmem | hmem | hmem | hmem
    · exact hbad hp (ha.pieces _ hmem)
    · cases hmem
    · -- the placeholder is the word's own, which has a spec and no brace
      rw [Piece.ofPlaceholder, Piece.field.injEq] at hmem
      have hp' := nameAndSpec_eq p
      rw [hmem.1, hmem.2] at hp'
      rcases hp with rfl | hp
      · simp at hp'
      · rw [hp'] at hp
        have := hspec.notMem (c := '{') (by decide)
        simp [this] at hp
    · exact hbad hp (hb.pieces _ hmem)
  have hword : ¬ 'Z' :: hole <:+: a ++ (zWord (some spec) ++ b) := fun h =>
    hnone ((List.suffix_cons 'Z' hole).isInfix.trans h)
  have hspaced : ¬ ' ' :: 'Z' :: hole <:+: a ++ (zWord (some spec) ++ b) := fun h =>
    hword ((List.suffix_cons ' ' ('Z' :: hole)).isInfix.trans h)
  rw [hw, replaceText_of_not_contained hspaced, replaceText_of_not_contained hword]

/-! ### Up to spaces -/

/-- A text without its blanks. -/
def squeeze (t : Text) : Text := t.filter fun c => !isWhitespace c

/-- A piece other than a blank. -/
def Piece.ink : Piece → Bool
  | .lit c => !isWhitespace c
  | .field _ _ => true

/-- A `Z` and the start of a number, however they are spaced. -/
def ZWord (t : Text) : Prop :=
  ∃ c, ((digitValue c).isSome ∨ c = '.' ∨ c = '-' ∨ c = '+') ∧ ['Z', c] <:+: squeeze t

theorem trim_parts (t : Text) : ∃ w₁ w₂, t = w₁ ++ (trim t ++ w₂) ∧
    (∀ c ∈ w₁, isWhitespace c = true) ∧ ∀ c ∈ w₂, isWhitespace c = true := by
  refine ⟨t.takeWhile isWhitespace, (t.dropWhile isWhitespace).rtakeWhile isWhitespace, ?_,
    fun c hc => List.mem_takeWhile_imp hc, fun c hc => List.mem_rtakeWhile_imp hc⟩
  rw [trim, trimEnd, List.rdropWhile_append_rtakeWhile, List.takeWhile_append_dropWhile]

theorem notMem_blank {w : Text} (hw : ∀ c ∈ w, isWhitespace c = true) {c : Char}
    (hc : isWhitespace c = false) : c ∉ w := by
  intro hmem
  rw [hw c hmem] at hc
  cases hc

/-- The pieces of blanks leave no ink. -/
theorem ink_blank {w : Text} (hw : ∀ c ∈ w, isWhitespace c = true) :
    (scan none w).1.filter Piece.ink = [] := by
  rw [scan_lit (notMem_blank hw (by decide)), List.filter_eq_nil_iff]
  intro p hp
  obtain ⟨c, hc, rfl⟩ := List.mem_map.mp hp
  simp [Piece.ink, hw c hc]

/-- Trimming a template takes blanks from it. -/
theorem scan_trim {t : Text} (h : (scan none t).2 = none) :
    (scan none (trim t)).2 = none ∧
      (scan none (trim t)).1.filter Piece.ink = (scan none t).1.filter Piece.ink := by
  obtain ⟨w₁, w₂, ht, hw₁, hw₂⟩ := trim_parts t
  have hfirst : scan none w₁ = (w₁.map .lit, none) := scan_lit (notMem_blank hw₁ (by decide))
  have hscan : scan none t = ((scan none w₁).1 ++ ((scan none (trim t)).1 ++
      (scan (scan none (trim t)).2 w₂).1), (scan (scan none (trim t)).2 w₂).2) := by
    conv_lhs => rw [ht]
    rw [scan_append, hfirst, scan_append]
  rw [hscan] at h ⊢
  have hst : (scan none (trim t)).2 = none := by
    cases hst : (scan none (trim t)).2 with
    | none => rfl
    | some p =>
      rw [hst, scan_open p (notMem_blank hw₂ (by decide))] at h
      cases h
  refine ⟨hst, ?_⟩
  rw [hst, List.filter_append, List.filter_append, ink_blank hw₁, ink_blank hw₂, List.nil_append,
    List.append_nil]

section Ink

variable {F : Type} (fmt : NumberFormat F) (args : List (Text × Arg F))

/-- The blanks among the pieces do not show once the text is squeezed. -/
theorem squeeze_ink (ps : List Piece) :
    squeeze (ps.flatMap (Piece.text fmt args)) =
      squeeze ((ps.filter Piece.ink).flatMap (Piece.text fmt args)) := by
  induction ps with
  | nil => rfl
  | cons p ps ih =>
    by_cases hp : p.ink = true
    · rw [List.filter_cons_of_pos hp, List.flatMap_cons, List.flatMap_cons, squeeze,
        List.filter_append]
      rw [squeeze, squeeze] at ih
      rw [ih, squeeze, List.filter_append]
    · rw [List.filter_cons_of_neg hp, List.flatMap_cons, ← ih, squeeze, List.filter_append]
      have hblank : (p.text fmt args).filter (fun c => !isWhitespace c) = [] := by
        cases p with
        | field name spec => exact absurd rfl hp
        | lit c => simpa [Piece.text, Piece.value, Piece.ink] using hp
      rw [hblank, List.nil_append, squeeze]

/-- A blank is neither unknown nor too fine. -/
theorem printable_ink {ps : List Piece} (h : ∀ p ∈ ps, p.unknown args = false) :
    printable fmt args ps = printable fmt args (ps.filter Piece.ink) := by
  have h' : ∀ p ∈ ps.filter Piece.ink, p.unknown args = false := fun p hp =>
    h p (List.mem_of_mem_filter hp)
  rw [Bool.eq_iff_iff, printable_iff fmt args h, printable_iff fmt args h']
  constructor
  · exact fun hf p hp => hf p (List.mem_of_mem_filter hp)
  · intro hf p hp
    cases p with
    | lit c => rfl
    | field name spec => exact hf _ (List.mem_filter.mpr ⟨hp, rfl⟩)

end Ink

/-! ### The command without a Z value -/

section Wcs

variable {F : Type} (fmt : NumberFormat F) (d : Templates) (pNum : ℤ) (x y : F)

/-- **No Z word without a Z value.**  `rest` is the template with its Z word removed. -/
structure DropsZ (rest : Text) : Prop where
  /-- Without a value for Z, the command is that of `rest` up to spaces, and no Z word is in it
  that `rest` does not write itself. -/
  without : ∃ out outRest, d.formatWcsOffset fmt pNum x y none = .ok out ∧
    formatTemplate fmt rest (wcsArgs pNum x y fmt.zero) = .ok outRest ∧
      squeeze out = squeeze outRest ∧ (ZWord out → ZWord outRest)
  /-- With a value it is that of the template. -/
  withValue : ∀ z, d.formatWcsOffset fmt pNum x y (some z) =
    formatTemplate fmt d.setWcsOffset (wcsArgs pNum x y z)

/-- The names of the work offset template are known. -/
theorem Plain.known {t : Text} (h : Plain t) (z : F) :
    ∀ p ∈ (scan none t).1, p.unknown (wcsArgs pNum x y z) = false := by
  intro p hp
  have hplain := h.pieces p hp
  cases p with
  | lit c => rfl
  | field name spec =>
    have hname : ∀ n ∈ ["p_num".toList, "x".toList, "y".toList],
        n ∈ ["p_num".toList, "x".toList, "y".toList, "z".toList] := by decide
    simp only [Piece.unknown, wcsArgs, List.map_cons, List.map_nil, decide_eq_false_iff_not,
      not_not]
    exact hname name hplain.1

theorem known_around {a b : Text} {spec : Option Text} (ha : Plain a) (hb : Plain b)
    (hspec : supportedSpec spec) (z : F) :
    ∀ p ∈ (scan none (a ++ (zWord spec ++ b))).1, p.unknown (wcsArgs pNum x y z) = false := by
  rw [scan_around ha hb hspec]
  intro p hp
  rcases List.mem_append.mp hp with hp | hp
  · exact ha.known pNum x y z p hp
  · rcases List.mem_cons.mp hp with rfl | hp
    · rfl
    rcases List.mem_cons.mp hp with rfl | hp
    · simp [Piece.unknown, wcsArgs]
    · exact hb.known pNum x y z p hp

/-- A trimmed template whose names are known is formatted or panics, as its ink has it. -/
theorem formatTemplate_trim {args : List (Text × Arg F)} {t : Text} (hst : (scan none t).2 = none)
    (h : ∀ p ∈ (scan none t).1.filter Piece.ink, p.unknown args = false) :
    (printable fmt args ((scan none t).1.filter Piece.ink) = true ∧ ∃ out,
        formatTemplate fmt (trim t) args = .ok out ∧
        squeeze out = squeeze (((scan none t).1.filter Piece.ink).flatMap (Piece.text fmt args))) ∨
      (printable fmt args ((scan none t).1.filter Piece.ink) = false ∧
        (formatTemplate fmt (trim t) args).Panics) := by
  obtain ⟨hclosed, hink⟩ := scan_trim hst
  rw [← hink] at h ⊢
  have hknown : ∀ p ∈ (scan none (trim t)).1, p.unknown args = false := by
    intro p hp
    cases p with
    | lit c => rfl
    | field name spec => exact h _ (List.mem_filter.mpr ⟨hp, rfl⟩)
  rw [← printable_ink fmt args hknown]
  rcases formatTemplate_known fmt args hclosed hknown with ⟨hp, heq⟩ | ⟨hp, hpanic⟩
  · exact .inl ⟨hp, _, heq, squeeze_ink fmt args _⟩
  · exact .inr ⟨hp, hpanic⟩

theorem Outcome.expect_ok {α : Type*} (debug : Text → Text) (message : Text) (a : α) :
    (Outcome.ok a).expect debug message = .ok a := rfl

theorem Outcome.expect_panics {α : Type*} (debug : Text → Text) (message : Text)
    {r : Outcome α} (h : r.Panics) : (r.expect debug message) = r := by
  obtain ⟨e, rfl⟩ := h
  rfl

/-- The ink of the work offset template without its Z word. -/
theorem ink_withoutZ {a b : Text} (ha : Plain a) (hb : Plain b) :
    ∃ s, withoutZ (a ++ (zWord none ++ b)) = trim s ∧ (scan none s).2 = none ∧
      (scan none s).1.filter Piece.ink = (scan none (a ++ b)).1.filter Piece.ink := by
  have hclosed : scan none [' '] = ([.lit ' '], none) := rfl
  have hspace : [Piece.lit ' '].filter Piece.ink = [] := rfl
  rcases withoutZ_word ha hb with ⟨a', rfl, h⟩ | h
  · have ha' : Plain a' := ha.of_append (by decide)
    refine ⟨_, h, (ha'.append hb).closed, ?_⟩
    rw [scan_append, ha'.closed, scan_append b, ha.closed, scan_append [' '], ha'.closed, hclosed]
    simp only [List.filter_append, hspace, List.append_nil]
  · refine ⟨_, h, ?_, ?_⟩
    · rw [scan_append, scan_append, ha.closed, hclosed, hb.closed]
    · rw [scan_append, scan_append [' '], ha.closed, hclosed, scan_append b, ha.closed]
      simp only [List.filter_append, hspace, List.append_nil]

/-- The command with a value for Z. -/
theorem formatWcsOffset_some {a b : Text} {spec : Option Text} (ha : Plain a) (hb : Plain b)
    (hspec : supportedSpec spec) (hd : d.setWcsOffset = a ++ (zWord spec ++ b)) (z : F) :
    d.formatWcsOffset fmt pNum x y (some z) =
      formatTemplate fmt d.setWcsOffset (wcsArgs pNum x y z) := by
  have hclosed : (scan none d.setWcsOffset).2 = none := by rw [hd, scan_around ha hb hspec]
  have hknown : ∀ p ∈ (scan none d.setWcsOffset).1, p.unknown (wcsArgs pNum x y z) = false := by
    rw [hd]
    exact known_around pNum x y ha hb hspec z
  have hformat : d.formatWcsOffset fmt pNum x y (some z) =
      (formatTemplate fmt d.setWcsOffset (wcsArgs pNum x y z)).expect fmt.debug
        "valid template".toList := rfl
  rw [hformat]
  rcases formatTemplate_known fmt _ hclosed hknown with ⟨-, heq⟩ | ⟨-, hpanic⟩
  · rw [heq, Outcome.expect_ok]
  · exact Outcome.expect_panics _ _ hpanic

/-- The command without a value for Z, where the word has no format spec. -/
theorem formatWcsOffset_none {a b : Text} (ha : Plain a) (hb : Plain b)
    (hd : d.setWcsOffset = a ++ (zWord none ++ b))
    (hp : printable fmt (wcsArgs pNum x y fmt.zero) (scan none (a ++ b)).1 = true) :
    ∃ out outRest, d.formatWcsOffset fmt pNum x y none = .ok out ∧
      formatTemplate fmt (a ++ b) (wcsArgs pNum x y fmt.zero) = .ok outRest ∧
        squeeze out = squeeze outRest := by
  have hab := ha.append hb
  have hknown := hab.known pNum x y fmt.zero
  obtain ⟨s, hs, hclosed, hink⟩ := ink_withoutZ ha hb
  have hformat : d.formatWcsOffset fmt pNum x y none =
      (formatTemplate fmt (trim s) (wcsArgs pNum x y fmt.zero)).expect fmt.debug
        "valid template".toList := by rw [← hs, ← hd]; rfl
  have hknown' : ∀ p ∈ (scan none s).1.filter Piece.ink,
      p.unknown (wcsArgs pNum x y fmt.zero) = false := by
    rw [hink]
    exact fun p hmem => hknown p (List.mem_of_mem_filter hmem)
  rcases formatTemplate_trim fmt hclosed hknown' with ⟨-, out, hout, hsq⟩ | ⟨hbad, -⟩
  · rcases formatTemplate_known fmt _ hab.closed hknown with ⟨-, hrest⟩ | ⟨hbad, -⟩
    · refine ⟨out, _, by rw [hformat, hout, Outcome.expect_ok], hrest, ?_⟩
      rw [hsq, hink]
      exact (squeeze_ink fmt _ _).symm
    · rw [hp] at hbad
      cases hbad
  · rw [hink, ← printable_ink fmt _ hknown, hp] at hbad
    cases hbad

/-- Where the word has a format spec, the command has text beyond that of the rest. -/
theorem formatWcsOffset_spec {a b spec out outRest : Text} (ha : Plain a) (hb : Plain b)
    (hspec : supportedSpec (some spec)) (hd : d.setWcsOffset = a ++ (zWord (some spec) ++ b))
    (hout : d.formatWcsOffset fmt pNum x y none = .ok out)
    (hrest : formatTemplate fmt (a ++ b) (wcsArgs pNum x y fmt.zero) = .ok outRest) :
    squeeze out ≠ squeeze outRest := by
  have hscan := scan_around ha hb hspec
  have hknown := known_around pNum x y ha hb hspec fmt.zero
  have hformat : d.formatWcsOffset fmt pNum x y none =
      (formatTemplate fmt (trim (a ++ (zWord (some spec) ++ b)))
        (wcsArgs pNum x y fmt.zero)).expect fmt.debug "valid template".toList := by
    rw [← withoutZ_spec ha hb hspec, ← hd]
    rfl
  rw [hformat] at hout
  have hsq : squeeze out = squeeze ((scan none (a ++ (zWord (some spec) ++ b))).1.flatMap
      (Piece.text fmt (wcsArgs pNum x y fmt.zero))) := by
    rw [squeeze_ink]
    rcases formatTemplate_trim fmt (by rw [hscan])
      (fun p hp => hknown p (List.mem_of_mem_filter hp)) with ⟨-, out', hout', hsq⟩ | ⟨-, hpanic⟩
    · rw [hout', Outcome.expect_ok, Outcome.ok.injEq] at hout
      rw [← hout, hsq]
    · obtain ⟨e, he⟩ := hpanic
      rw [he] at hout
      cases hout
  have hab := ha.append hb
  have hsq' : squeeze outRest = squeeze ((scan none (a ++ b)).1.flatMap
      (Piece.text fmt (wcsArgs pNum x y fmt.zero))) := by
    rcases formatTemplate_known fmt _ hab.closed (hab.known pNum x y fmt.zero) with
      ⟨-, heq⟩ | ⟨-, e, he⟩
    · rw [hrest, Outcome.ok.injEq] at heq
      rw [heq]
    · rw [hrest] at he
      cases he
  -- the letter of the word is in the one text and not in the other
  intro h
  have hlen := congrArg List.length h
  rw [hsq, hsq', hscan, scan_append b, ha.closed] at hlen
  have hZ : squeeze ((Piece.lit 'Z').text fmt (wcsArgs pNum x y fmt.zero)) = ['Z'] := rfl
  simp only [List.flatMap_append, List.flatMap_cons, squeeze, List.filter_append,
    List.length_append] at hlen hZ
  rw [hZ, List.length_singleton] at hlen
  omega

/-- **When the Z word is dropped.**  For every template of the placeholder language whose only
use of `z` is one Z word, and for all values, the command without a value for Z is the template
with the word removed exactly when the word is `Z{z}`, without a format spec (and `std` prints
as many decimals as the rest of the template asks for). -/
theorem dropsZ_iff {a b : Text} {spec : Option Text} (ha : Plain a) (hb : Plain b)
    (hspec : supportedSpec spec) (hd : d.setWcsOffset = a ++ (zWord spec ++ b)) :
    DropsZ fmt d pNum x y (a ++ b) ↔ spec = none ∧
      printable fmt (wcsArgs pNum x y fmt.zero) (scan none (a ++ b)).1 = true := by
  constructor
  · rintro ⟨⟨out, outRest, hout, hrest, hsq, -⟩, -⟩
    constructor
    · cases spec with
      | none => rfl
      | some spec => exact absurd hsq (formatWcsOffset_spec fmt d pNum x y ha hb hspec hd hout hrest)
    · rcases formatTemplate_cases fmt (wcsArgs pNum x y fmt.zero) (a ++ b) with
        ⟨-, e, he⟩ | ⟨hp, -⟩ | ⟨hp, -⟩
      · rw [hrest] at he
        cases he
      · exact hp
      · exact hp
  · rintro ⟨rfl, hp⟩
    obtain ⟨out, outRest, hout, hrest, hsq⟩ := formatWcsOffset_none fmt d pNum x y ha hb hd hp
    refine ⟨⟨out, outRest, hout, hrest, hsq, ?_⟩, formatWcsOffset_some fmt d pNum x y ha hb hspec hd⟩
    rintro ⟨c, hc, hin⟩
    exact ⟨c, hc, hsq ▸ hin⟩

end Wcs

/-- The default work offset template drops its Z word. -/
theorem dropsZ_default : DropsZ decimalFormat {} 1 10 20 "G10 L2 P{p_num} X{x} Y{y} ".toList :=
  have ha : Plain "G10 L2 P{p_num} X{x} Y{y} ".toList := ⟨rfl, by decide⟩
  (dropsZ_iff decimalFormat {} 1 10 20 ha ⟨rfl, by decide⟩ (by decide) rfl).mpr
    ⟨rfl, by decide +kernel⟩

/-- With three decimals asked for, a machine without a Z axis has its Z offset set to zero. -/
theorem spec_keeps_zWord :
    ¬ DropsZ decimalFormat { setWcsOffset := "G10 L2 P{p_num} X{x} Y{y} Z{z:.3f}".toList } 1 10 20
      "G10 L2 P{p_num} X{x} Y{y} ".toList := by
  rintro ⟨⟨out, outRest, hout, hrest, hsq, -⟩, -⟩
  have hout' : Templates.formatWcsOffset decimalFormat
      { setWcsOffset := "G10 L2 P{p_num} X{x} Y{y} Z{z:.3f}".toList } 1 10 20 none =
      .ok "G10 L2 P1 X10.0 Y20.0 Z0.000".toList := by decide +kernel
  have hrest' : formatTemplate decimalFormat "G10 L2 P{p_num} X{x} Y{y} ".toList
      (wcsArgs 1 10 20 decimalFormat.zero) = .ok "G10 L2 P1 X10.0 Y20.0 ".toList := by
    decide +kernel
  rw [hout', Outcome.ok.injEq] at hout
  rw [hrest', Outcome.ok.injEq] at hrest
  rw [← hout, ← hrest] at hsq
  revert hsq
  decide

end Raydriver
