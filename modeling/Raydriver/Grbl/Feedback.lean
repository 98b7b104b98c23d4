import Raydriver.Core.Template
import Raydriver.Grbl.Settings

/-!
# Feedback lines

The lines in brackets with which GRBL answers a query, and their parsers.  Three of these are
regular expressions, of which every part is followed by a character that cannot belong to it:
the match at the head of a line, if there is one, is the only one, and does not look further
than its closing bracket.

## Main definitions

* `parseVer`, `parseMsg` — version and message lines.
* `parseOptFlags`, `parseWcsLine`, `parseProbeLine` — what else the driver parses.

## Main results

* `readWcs_closed`, `readProbe_closed`, `readOptLine_closed` — **a match at the head ends with its
  closing bracket**, whatever follows.
-/

namespace Raydriver

/-! ### Parsers -/

/-- `[VER:`, and the version with the name of the build. -/
def parseVer (line : Text) : Option (Text × Option Text) :=
  (stripPrefix "[VER:".toList line).bind fun content =>
    let content := content.rdropWhile fun c => c == ':' || c == ']'
    if content.isEmpty then none
    else
      match splitOnce ',' content with
      | some (version, _) => some (version, none)
      | none =>
        match splitOn '.' content with
        | a :: b :: c :: _ => some (a ++ ['.'] ++ b, some c)
        | [a, b] => some (a ++ ['.'] ++ b, none)
        | _ => some (content, none)

/-- `[MSG:key:value]`. -/
def parseMsg (line : Text) : Option (Text × Text) :=
  (stripPrefix "[MSG:".toList line).bind fun content =>
    (splitOnce ':' (content.rdropWhile fun c => c == ']')).map fun (key, value) =>
      (trim key, trim value)

/-- One character or more of a class, and the rest. -/
def readClass (p : Char → Bool) (t : Text) : Option (Text × Text) :=
  let a := t.takeWhile p
  if a.isEmpty then none else some (a, t.drop a.length)

/-- One character of a class, and the rest. -/
def readChar (p : Char → Bool) : Text → Option (Char × Text)
  | [] => none
  | c :: t => if p c then some (c, t) else none

/-- `\[OPT:([A-Z]+),(\d+),(\d+)\]`, matched at the head: the flags and the RX buffer size. -/
def readOptLine (t : Text) : Option (Text × Text) :=
  (stripPrefix "[OPT:".toList t).bind fun t =>
    (readClass (fun c => 'A' ≤ c && c ≤ 'Z') t).bind fun (flags, t) =>
      (stripPrefix [','] t).bind fun t => (readClass isDigit t).bind fun (_, t) =>
        (stripPrefix [','] t).bind fun t => (readClass isDigit t).bind fun (size, t) =>
          (stripPrefix [']'] t).map fun _ => (flags, size)

/-- `parse_opt_flags`. -/
def parseOptFlags (line : Text) : Option Text := (search readOptLine line).map Prod.fst

/-- `(?:,([\d\.-]+))?\]`, matched at the head. -/
def readThird (t : Text) : Option (Option Text) :=
  ((stripPrefix [','] t).bind fun t => (readClass isSettingChar t).bind fun (z, t) =>
    (stripPrefix [']'] t).map fun _ => some z).or
      ((stripPrefix [']'] t).map fun _ => none)

/-- `\[(G5[4-9]):([\d\.-]+),([\d\.-]+)(?:,([\d\.-]+))?\]`, matched at the head. -/
def readWcs (t : Text) : Option (Text × Text × Text × Option Text) :=
  (stripPrefix "[G5".toList t).bind fun t =>
    (readChar (fun c => '4' ≤ c && c ≤ '9') t).bind fun (d, t) =>
      (stripPrefix [':'] t).bind fun t => (readClass isSettingChar t).bind fun (x, t) =>
        (stripPrefix [','] t).bind fun t => (readClass isSettingChar t).bind fun (y, t) =>
          (readThird t).map fun z => (['G', '5', d], x, y, z)

/-- `parse_wcs_line`; the third coordinate defaults to zero. -/
def parseWcsLine (line : Text) : Option (Text × ℚ × ℚ × ℚ) :=
  (search readWcs line).bind fun (slot, x, y, z) =>
    (parseF64 x).bind fun x => (parseF64 y).bind fun y =>
      (z.elim (some 0) parseF64).map fun z => (slot, x, y, z)

/-- `\[PRB:([\d\.-]+),([\d\.-]+),([\d\.-]+):(\d)\]`, matched at the head. -/
def readProbe (t : Text) : Option (Text × Text × Text × Char) :=
  (stripPrefix "[PRB:".toList t).bind fun t =>
    (readClass isSettingChar t).bind fun (x, t) => (stripPrefix [','] t).bind fun t =>
      (readClass isSettingChar t).bind fun (y, t) => (stripPrefix [','] t).bind fun t =>
        (readClass isSettingChar t).bind fun (z, t) => (stripPrefix [':'] t).bind fun t =>
          (readChar isDigit t).bind fun (success, t) =>
            (stripPrefix [']'] t).map fun _ => (x, y, z, success)

/-- `parse_probe_line`. -/
def parseProbeLine (line : Text) : Option ((ℚ × ℚ × ℚ) × Bool) :=
  (search readProbe line).bind fun (x, y, z, success) =>
    (parseF64 x).bind fun x => (parseF64 y).bind fun y => (parseF64 z).map fun z =>
      ((x, y, z), success == '1')

example : parseVer "[VER:1.1h.20190825:]".toList =
    some ("1.1h".toList, some "20190825".toList) := by decide

example : parseWcsLine "[G54:1.5,-2,0.000]".toList = some ("G54".toList, 3 / 2, -2, 0) := by
  decide +kernel

/-! ### What a match at the head looks like -/

section Readers

variable {p : Char → Bool} {t u a : Text} {c : Char}

theorem readChar_eq_some_iff : readChar p t = some (c, u) ↔ t = c :: u ∧ p c = true := by
  cases t with
  | nil => exact ⟨nofun, fun h => nomatch h.1⟩
  | cons d t =>
    rw [readChar]
    constructor
    · intro h
      split_ifs at h with hd
      cases h
      exact ⟨rfl, hd⟩
    · rintro ⟨h, hc⟩
      cases h
      rw [if_pos hc]

theorem drop_takeWhile (p : Char → Bool) (t : Text) :
    t.drop (t.takeWhile p).length = t.dropWhile p := by
  have h := List.takeWhile_append_dropWhile (p := p) (l := t)
  calc t.drop (t.takeWhile p).length
      = (t.takeWhile p ++ t.dropWhile p).drop (t.takeWhile p).length := by rw [h]
    _ = t.dropWhile p := List.drop_left

/-- A class is read up to the first character outside of it. -/
theorem readClass_eq_some_iff : readClass p t = some (a, u) ↔
    t = a ++ u ∧ a ≠ [] ∧ (∀ x ∈ a, p x = true) ∧ ∀ x, u.head? = some x → p x = false := by
  have hread : readClass p t =
      if (t.takeWhile p).isEmpty then none else some (t.takeWhile p, t.dropWhile p) := by
    rw [← drop_takeWhile]
    rfl
  rw [hread]
  constructor
  · intro h
    split_ifs at h with hempty
    obtain ⟨rfl, rfl⟩ := Prod.mk.inj (Option.some.inj h)
    refine ⟨List.takeWhile_append_dropWhile.symm, fun hnil => hempty (List.isEmpty_iff.mpr hnil),
      fun x hx => List.mem_takeWhile_imp hx, fun x hx => ?_⟩
    have hstop := List.head?_dropWhile_not p t
    rw [hx] at hstop
    simpa using hstop
  · rintro ⟨rfl, hne, hall, hstop⟩
    have hrest : u.takeWhile p = [] ∧ u.dropWhile p = u := by
      cases u with
      | nil => exact ⟨rfl, rfl⟩
      | cons x u =>
        have hx := hstop x rfl
        exact ⟨List.takeWhile_cons_of_neg (by simp [hx]), List.dropWhile_cons_of_neg (by simp [hx])⟩
    have hwhile : (a ++ u).takeWhile p = a := by
      rw [List.takeWhile_append_of_pos hall, hrest.1, List.append_nil]
    have hdrop : (a ++ u).dropWhile p = u := by
      rw [List.dropWhile_append_of_pos hall, hrest.2]
    rw [hwhile, hdrop]
    exact if_neg (by simpa using hne)

/-- **A match at the head ends with its closing bracket**, whatever follows. -/
theorem readOptLine_closed {r : Text × Text} (h : readOptLine t = some r) :
    ∃ m rest, t = '[' :: m ++ ']' :: rest ∧
      ∀ rest', readOptLine ('[' :: m ++ ']' :: rest') = some r := by
  simp only [readOptLine, Option.bind_eq_some_iff, Option.map_eq_some_iff, Prod.exists,
    stripPrefix_eq_some_iff, readClass_eq_some_iff] at h ⊢
  obtain ⟨-, rfl, flags, -, ⟨rfl, hflags⟩, -, rfl, planner, -, ⟨rfl, hplanner⟩, -, rfl, size, -,
    ⟨rfl, hsize⟩, rest, rfl, rfl⟩ := h
  refine ⟨"OPT:".toList ++ (flags ++ ([','] ++ (planner ++ ([','] ++ size)))), rest, by simp,
    fun rest' => ?_⟩
  -- the three numbers of the match, each followed by what closes it
  refine ⟨flags ++ ([','] ++ (planner ++ ([','] ++ (size ++ ([']'] ++ rest'))))), by simp,
    flags, [','] ++ (planner ++ ([','] ++ (size ++ ([']'] ++ rest')))), ⟨rfl, hflags⟩,
    planner ++ ([','] ++ (size ++ ([']'] ++ rest'))), rfl,
    planner, [','] ++ (size ++ ([']'] ++ rest')), ⟨rfl, hplanner⟩,
    size ++ ([']'] ++ rest'), rfl, size, [']'] ++ rest', ⟨rfl, hsize⟩, rest', rfl, rfl⟩

theorem readProbe_closed {r : Text × Text × Text × Char} (h : readProbe t = some r) :
    ∃ m rest, t = '[' :: m ++ ']' :: rest ∧
      ∀ rest', readProbe ('[' :: m ++ ']' :: rest') = some r := by
  simp only [readProbe, Option.bind_eq_some_iff, Option.map_eq_some_iff, Prod.exists,
    stripPrefix_eq_some_iff, readClass_eq_some_iff, readChar_eq_some_iff] at h ⊢
  obtain ⟨-, rfl, x, -, ⟨rfl, hx⟩, -, rfl, y, -, ⟨rfl, hy⟩, -, rfl, z, -, ⟨rfl, hz⟩, -, rfl,
    success, -, ⟨rfl, hsuccess⟩, rest, rfl, rfl⟩ := h
  refine ⟨"PRB:".toList ++ (x ++ ([','] ++ (y ++ ([','] ++ (z ++ ([':'] ++ [success])))))), rest,
    by simp, fun rest' => ?_⟩
  refine ⟨x ++ ([','] ++ (y ++ ([','] ++ (z ++ ([':'] ++ success :: ([']'] ++ rest')))))), by simp,
    x, [','] ++ (y ++ ([','] ++ (z ++ ([':'] ++ success :: ([']'] ++ rest'))))), ⟨rfl, hx⟩,
    y ++ ([','] ++ (z ++ ([':'] ++ success :: ([']'] ++ rest')))), rfl,
    y, [','] ++ (z ++ ([':'] ++ success :: ([']'] ++ rest'))), ⟨rfl, hy⟩,
    z ++ ([':'] ++ success :: ([']'] ++ rest')), rfl,
    z, [':'] ++ success :: ([']'] ++ rest'), ⟨rfl, hz⟩,
    success :: ([']'] ++ rest'), rfl, success, [']'] ++ rest', ⟨rfl, hsuccess⟩, rest', rfl, rfl⟩

/-- The third coordinate, if there is one, and the closing bracket. -/
theorem readThird_closed {z : Option Text} (h : readThird t = some z) :
    ∃ m rest, t = m ++ ']' :: rest ∧ (∀ rest', readThird (m ++ ']' :: rest') = some z) ∧
      ∀ rest', (m ++ ']' :: rest').head? = (m ++ ']' :: rest).head? := by
  simp only [readThird, Option.or_eq_some_iff] at h ⊢
  rcases h with hthird | ⟨hnone, hclose⟩
  · simp only [Option.bind_eq_some_iff, Option.map_eq_some_iff, Prod.exists,
      stripPrefix_eq_some_iff, readClass_eq_some_iff] at hthird ⊢
    obtain ⟨-, rfl, a, -, ⟨rfl, ha⟩, rest, rfl, rfl⟩ := hthird
    refine ⟨',' :: a, rest, by simp, fun rest' => .inl ?_, fun rest' => rfl⟩
    exact ⟨a ++ ([']'] ++ rest'), by simp, a, [']'] ++ rest', ⟨rfl, ha⟩, rest', rfl, rfl⟩
  · simp only [Option.map_eq_some_iff, stripPrefix_eq_some_iff] at hclose
    obtain ⟨rest, rfl, rfl⟩ := hclose
    refine ⟨[], rest, rfl, fun rest' => .inr ⟨rfl, ?_⟩, fun rest' => rfl⟩
    rfl

theorem readWcs_closed {r : Text × Text × Text × Option Text} (h : readWcs t = some r) :
    ∃ m rest, t = '[' :: m ++ ']' :: rest ∧
      ∀ rest', readWcs ('[' :: m ++ ']' :: rest') = some r := by
  simp only [readWcs, Option.bind_eq_some_iff, Option.map_eq_some_iff, Prod.exists,
    stripPrefix_eq_some_iff, readClass_eq_some_iff, readChar_eq_some_iff] at h ⊢
  obtain ⟨-, rfl, d, -, ⟨rfl, hd⟩, -, rfl, x, -, ⟨rfl, hx⟩, -, rfl, y, u, ⟨rfl, hy⟩, z, hz,
    rfl⟩ := h
  obtain ⟨m, rest, rfl, hthird, hhead⟩ := readThird_closed hz
  refine ⟨"G5".toList ++ (d :: ([':'] ++ (x ++ ([','] ++ (y ++ m))))), rest, by simp,
    fun rest' => ?_⟩
  refine ⟨d :: ([':'] ++ (x ++ ([','] ++ (y ++ (m ++ ']' :: rest'))))), by simp,
    d, [':'] ++ (x ++ ([','] ++ (y ++ (m ++ ']' :: rest')))), ⟨rfl, hd⟩,
    x ++ ([','] ++ (y ++ (m ++ ']' :: rest'))), rfl, x, [','] ++ (y ++ (m ++ ']' :: rest')),
    ⟨rfl, hx⟩, y ++ (m ++ ']' :: rest'), rfl, y, m ++ ']' :: rest', ⟨rfl, hy.1, hy.2.1, ?_⟩,
    z, hthird rest', rfl⟩
  intro c hc
  exact hy.2.2 c (by rw [← hhead rest', hc])

end Readers

end Raydriver
