import Mathlib.Algebra.GroupWithZero.Nat
import Mathlib.Data.List.DropRight
import Mathlib.Data.List.Infix

/-!
# Bytes and text

The driver moves between raw bytes (`Vec<u8>`) and text (`String`).  Bytes are
`List UInt8`; text is `List Char`, the sequence of its scalar values.  The
functions of the standard library the driver relies on are defined here under
their Rust names: `String::from_utf8`, `str::trim`, `str::trim_end` and
`str::lines`.

## Main definitions

* `fromUtf8` — decoding, `none` on an ill-formed sequence.
* `utf8Len` — the number of bytes a text takes.
* `trim`, `trimEnd`, `lines` — as in Rust's `str`.

## Main results

* `fromUtf8_append` — decoding a well-formed prefix first.
* `fromUtf8_cons_ascii` — an ASCII character comes from its own byte.
* `lines_of_notMem` — a text without a newline is its own single line.
-/

namespace Raydriver

/-- What goes over the wire. -/
abbrev Bytes := List UInt8

/-- A text, as its characters. -/
abbrev Text := List Char

/-- Line feed, `b'\n'`. -/
def LF : UInt8 := 10

/-- Carriage return, `b'\r'`. -/
def CR : UInt8 := 13

/-- The bytes of an ASCII literal, `b"..."`. -/
def ascii (s : String) : Bytes := s.toList.map Char.toUInt8

/-! ### UTF-8 -/

/-- Decoding in the middle of a character: `need` continuation bytes are owed,
`acc` is the value read so far, and the finished scalar value must be at least
`min` (no overlong form), no surrogate and at most `U+10FFFF`. -/
def utf8From (need min acc : ℕ) : Bytes → Option Text
  | [] => if need = 0 then some [] else none
  | a :: r =>
    match need with
    | 0 =>
      if a < 0x80 then (utf8From 0 0 0 r).map (Char.ofNat a.toNat :: ·)
      else if a < 0xC0 then none
      else if a < 0xE0 then utf8From 1 0x80 (a.toNat - 0xC0) r
      else if a < 0xF0 then utf8From 2 0x800 (a.toNat - 0xE0) r
      else if a < 0xF8 then utf8From 3 0x10000 (a.toNat - 0xF0) r
      else none
    | k + 1 =>
      let v := acc * 64 + (a.toNat - 0x80)
      if a < 0x80 ∨ 0xC0 ≤ a then none
      else if k ≠ 0 then utf8From k min v r
      else if min ≤ v ∧ v.isValidChar then (utf8From 0 0 0 r).map (Char.ofNat v :: ·)
      else none

/-- `String::from_utf8`: the decoded text, or `none` where the bytes are not
well-formed UTF-8. -/
def fromUtf8 (b : Bytes) : Option Text := utf8From 0 0 0 b

/-- The number of bytes of a text, `str::len`. -/
def utf8Len (t : Text) : ℕ := (t.map Char.utf8Size).sum

example : fromUtf8 [0x6F, 0xC3, 0xA9, 0xE2, 0x82, 0xAC] = some ['o', 'é', '€'] := by decide

example : fromUtf8 [0xC0, 0x80] = none := by decide

/-- Decoding starts with the well-formed prefix. -/
theorem utf8From_append (b : Bytes) : ∀ (a : Bytes) (need min acc : ℕ) (t : Text),
    utf8From need min acc a = some t →
      utf8From need min acc (a ++ b) = (fromUtf8 b).map (t ++ ·) := by
  intro a
  induction a with
  | nil =>
    intro need min acc t h
    cases need with
    | zero =>
      obtain rfl : [] = t := by simpa [utf8From] using h
      cases b <;> simp [fromUtf8, utf8From]
    | succ k => simp [utf8From] at h
  | cons x a ih =>
    -- a finished character is put in front, whatever follows it
    have cons (c : Char) (t : Text) (h : (utf8From 0 0 0 a).map (c :: ·) = some t) :
        (utf8From 0 0 0 (a ++ b)).map (c :: ·) = (fromUtf8 b).map (t ++ ·) := by
      obtain ⟨t', ht', rfl⟩ := Option.map_eq_some_iff.mp h
      rw [ih 0 0 0 t' ht', Option.map_map]
      rfl
    intro need min acc t h
    cases need with
    | zero =>
      simp only [List.cons_append, utf8From] at h ⊢
      split_ifs at h ⊢
      · exact cons _ t h
      all_goals exact ih _ _ _ t h
    | succ k =>
      simp only [List.cons_append, utf8From] at h ⊢
      split_ifs at h ⊢
      · exact ih _ _ _ t h
      · exact cons _ t h

theorem fromUtf8_append {a : Bytes} {t : Text} (h : fromUtf8 a = some t) (b : Bytes) :
    fromUtf8 (a ++ b) = (fromUtf8 b).map (t ++ ·) :=
  utf8From_append b a 0 0 0 t h

theorem toNat_ofNat_of_valid {n : ℕ} (h : n.isValidChar) : (Char.ofNat n).toNat = n := by
  rw [Char.ofNat, dif_pos h]
  rfl

/-- A character finished by a continuation byte is not ASCII. -/
theorem le_toNat_of_utf8From : ∀ (x : Bytes) (k min acc : ℕ) (c : Char) (t : Text),
    0x80 ≤ min → utf8From (k + 1) min acc x = some (c :: t) → 0x80 ≤ c.toNat := by
  intro x
  induction x with
  | nil => intro k min acc c t _ h; simp [utf8From] at h
  | cons a x ih =>
    intro k min acc c t hmin h
    simp only [utf8From] at h
    split_ifs at h with h1 h2 h3
    · obtain ⟨j, rfl⟩ := Nat.exists_eq_succ_of_ne_zero h2
      exact ih j _ _ c t hmin h
    · obtain ⟨t', -, ht'⟩ := Option.map_eq_some_iff.mp h
      obtain ⟨rfl, -⟩ := List.cons.inj ht'
      have hv := h3.1
      rw [toNat_ofNat_of_valid h3.2]
      omega

theorem toUInt8_ofNat_of_lt {a : UInt8} (h : a < 0x80) : (Char.ofNat a.toNat).toUInt8 = a := by
  have ha : a.toNat < 0x80 := h
  have hv : a.toNat.isValidChar := Or.inl (by omega)
  apply UInt8.toNat.inj
  change (Char.ofNat a.toNat).toNat % 256 = a.toNat
  rw [toNat_ofNat_of_valid hv]
  omega

/-- An ASCII character comes from its own byte. -/
theorem fromUtf8_cons_ascii {x : Bytes} {c : Char} {t : Text} (hc : c.toNat < 0x80)
    (h : fromUtf8 x = some (c :: t)) :
    ∃ x', x = c.toUInt8 :: x' ∧ fromUtf8 x' = some t := by
  cases x with
  | nil => simp [fromUtf8, utf8From] at h
  | cons a x =>
    simp only [fromUtf8, utf8From] at h
    split_ifs at h with h1
    · obtain ⟨t', ht', he⟩ := Option.map_eq_some_iff.mp h
      obtain ⟨rfl, rfl⟩ := List.cons.inj he
      refine ⟨x, ?_, ht'⟩
      rw [toUInt8_ofNat_of_lt h1]
    all_goals
      have := le_toNat_of_utf8From x _ _ _ c t (by decide) h
      omega

/-! ### Trimming and lines -/

/-- `char::is_whitespace`: the Unicode property `White_Space`. -/
def isWhitespace (c : Char) : Bool :=
  (0x9 ≤ c.toNat && c.toNat ≤ 0xD) || c.toNat == 0x20 || c.toNat == 0x85 ||
    c.toNat == 0xA0 || c.toNat == 0x1680 || (0x2000 ≤ c.toNat && c.toNat ≤ 0x200A) ||
    c.toNat == 0x2028 || c.toNat == 0x2029 || c.toNat == 0x202F || c.toNat == 0x205F ||
    c.toNat == 0x3000

/-- `str::trim_end`. -/
def trimEnd (t : Text) : Text := t.rdropWhile isWhitespace

/-- `str::trim`. -/
def trim (t : Text) : Text := trimEnd (t.dropWhile isWhitespace)

/-- A line without the carriage return before its newline. -/
def stripCr (t : Text) : Text := if t.getLast? = some '\r' then t.dropLast else t

/-- The lines of `cur ++ t`, of which `cur` is already read. -/
def linesFrom (cur : Text) : Text → List Text
  | [] => if cur.isEmpty then [] else [cur]
  | c :: t => if c = '\n' then stripCr cur :: linesFrom [] t else linesFrom (cur ++ [c]) t

/-- `str::lines`: split at `\n` or `\r\n`, the last line ending being optional. -/
def lines (t : Text) : List Text := linesFrom [] t

/-- `str::starts_with`. -/
def startsWith (p t : Text) : Bool := p.isPrefixOf t

/-- The value of a decimal digit. -/
def digitValue (c : Char) : Option ℕ := if '0' ≤ c ∧ c ≤ '9' then some (c.toNat - 48) else none

/-- The value of a text of digits, after the value read so far. -/
def digitsFrom (acc : ℕ) : Text → Option ℕ
  | [] => some acc
  | c :: t => (digitValue c).bind fun d => digitsFrom (10 * acc + d) t

/-- A non-empty text of digits. -/
def parseNat (t : Text) : Option ℕ := if t.isEmpty then none else digitsFrom 0 t

/-- `str::parse` for the signed integers, before the range check. -/
def parseInt : Text → Option ℤ
  | '-' :: t => (parseNat t).map fun n => -(n : ℤ)
  | '+' :: t => (parseNat t).map fun n => (n : ℤ)
  | t => (parseNat t).map fun n => (n : ℤ)

/-- `str::split` on one character. -/
def splitOn (sep : Char) : Text → List Text
  | [] => [[]]
  | c :: t =>
    if c = sep then [] :: splitOn sep t
    else
      match splitOn sep t with
      | [] => [[c]]
      | p :: ps => (c :: p) :: ps

/-- `str::strip_prefix`. -/
def stripPrefix (p t : Text) : Option Text := if p.isPrefixOf t then some (t.drop p.length) else none

/-- `str::contains` for a text. -/
def containsText (p : Text) : Text → Bool
  | [] => p.isEmpty
  | c :: t => p.isPrefixOf (c :: t) || containsText p t

example : splitOn '|' "Idle||Bf:15".toList = ["Idle".toList, [], "Bf:15".toList] := by decide

example : lines "G1 X1\r\n\nM5".toList = ["G1 X1".toList, [], "M5".toList] := by decide

/-- A newline in the decoded text is a newline byte. -/
theorem LF_mem_of_utf8From : ∀ (x : Bytes) (need min acc : ℕ) (t : Text),
    (need ≠ 0 → 0x80 ≤ min) → utf8From need min acc x = some t → '\n' ∈ t → LF ∈ x := by
  intro x
  induction x with
  | nil =>
    intro need min acc t _ h hmem
    simp only [utf8From] at h
    split_ifs at h
    cases Option.some.inj h
    simp at hmem
  | cons a x ih =>
    -- a decoded character is the newline, or the newline comes later
    have cons (c : Char) (t : Text) (h : (utf8From 0 0 0 x).map (c :: ·) = some t)
        (hmem : '\n' ∈ t) : c = '\n' ∨ LF ∈ x := by
      obtain ⟨t', ht', rfl⟩ := Option.map_eq_some_iff.mp h
      rcases List.mem_cons.mp hmem with he | hm
      · exact Or.inl he.symm
      · exact Or.inr (ih 0 0 0 t' (fun h => absurd rfl h) ht' hm)
    intro need min acc t hmin h hmem
    cases need with
    | zero =>
      simp only [utf8From] at h
      split_ifs at h with h1
      · rcases cons _ t h hmem with he | hm
        · have ha := toUInt8_ofNat_of_lt h1
          rw [he] at ha
          exact List.mem_cons.mpr (Or.inl ha)
        · exact List.mem_cons_of_mem _ hm
      all_goals
        exact List.mem_cons_of_mem _ (ih _ _ _ t (fun _ => by decide) h hmem)
    | succ k =>
      simp only [utf8From] at h
      split_ifs at h with h1 h2 h3
      · exact List.mem_cons_of_mem _ (ih _ _ _ t (fun _ => hmin (Nat.succ_ne_zero k)) h hmem)
      · rcases cons _ t h hmem with he | hm
        · have hv := congrArg Char.toNat he
          rw [toNat_ofNat_of_valid h3.2] at hv
          have h10 : '\n'.toNat = 10 := rfl
          have := hmin (Nat.succ_ne_zero k)
          omega
        · exact List.mem_cons_of_mem _ hm

theorem newline_notMem {x : Bytes} {t : Text} (h : fromUtf8 x = some t) (hx : LF ∉ x) :
    '\n' ∉ t :=
  fun hm => hx (LF_mem_of_utf8From x 0 0 0 t (fun h => absurd rfl h) h hm)

theorem linesFrom_of_notMem : ∀ (t cur : Text), '\n' ∉ t →
    linesFrom cur t = if (cur ++ t).isEmpty then [] else [cur ++ t] := by
  intro t
  induction t with
  | nil => intro cur _; simp [linesFrom]
  | cons c t ih =>
    intro cur h
    have hc : c ≠ '\n' := fun e => h (by simp [e])
    rw [linesFrom, if_neg hc, ih _ fun hm => h (List.mem_cons_of_mem _ hm)]
    simp

/-- A text without a newline is its own single line. -/
theorem lines_of_notMem {t : Text} (h : '\n' ∉ t) (hne : t ≠ []) : lines t = [t] := by
  rw [lines, linesFrom_of_notMem t [] h]
  simp [hne]

theorem trimEnd_append {t w : Text} (hw : ∀ c ∈ w, isWhitespace c) :
    trimEnd (t ++ w) = trimEnd t := by
  induction w using List.reverseRecOn with
  | nil => simp
  | append_singleton w c ih =>
    rw [← List.append_assoc, trimEnd, List.rdropWhile_concat,
      if_pos (hw c (by simp))]
    exact ih fun d hd => hw d (by simp [hd])

/-- Whitespace behind a text is trimmed off. -/
theorem trim_append {w : Text} (t : Text) (hw : ∀ c ∈ w, isWhitespace c) :
    trim (t ++ w) = trim t := by
  rw [trim, trim, List.dropWhile_append]
  split_ifs with ht
  · rw [List.isEmpty_iff.mp ht, List.dropWhile_eq_nil_iff.mpr hw]
  · exact trimEnd_append hw

/-- A trimmed text stays as it is. -/
theorem trim_trim (t : Text) : trim (trim t) = trim t := by
  have hhead : (trim t).dropWhile isWhitespace = trim t := by
    refine List.dropWhile_eq_self_iff.mpr fun hlen => ?_
    have hpre : trim t <+: t.dropWhile isWhitespace := List.rdropWhile_prefix isWhitespace _
    have hlen' : 0 < (t.dropWhile isWhitespace).length := hlen.trans_le hpre.length_le
    rw [hpre.getElem hlen]
    exact List.dropWhile_get_zero_not _ _ hlen'
  unfold trim at hhead ⊢
  rw [hhead]
  exact List.rdropWhile_idempotent isWhitespace _

theorem mem_of_mem_trim {t : Text} {c : Char} (h : c ∈ trim t) : c ∈ t :=
  (List.dropWhile_suffix (l := t) isWhitespace).subset
    ((List.rdropWhile_prefix isWhitespace _).subset h)

/-- A text whose last character is no whitespace survives in front of any other. -/
theorem prefix_trimEnd {s : Text} {c : Char} (hc : isWhitespace c = false) (t : Text) :
    s ++ [c] <+: trimEnd (s ++ [c] ++ t) := by
  induction t using List.reverseRecOn with
  | nil =>
    rw [List.append_nil, trimEnd, List.rdropWhile_concat_neg _ _ _ (by simp [hc])]
  | append_singleton t d ih =>
    rw [← List.append_assoc, trimEnd]
    cases hd : isWhitespace d with
    | true =>
      rw [List.rdropWhile_concat_pos _ _ _ hd]
      exact ih
    | false =>
      rw [List.rdropWhile_concat_neg _ _ _ (by simp [hd]), List.append_assoc, List.append_assoc]
      exact ⟨t ++ [d], by simp⟩

end Raydriver
