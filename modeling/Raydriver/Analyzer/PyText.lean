import Raydriver.Core.Text

/-!
# Python text

The analyzer is written in Python.  The methods of `str` and `bytes` and the text files it
relies on are defined here under their Python names.

## Main definitions

* `toUtf8` — `str.encode("utf-8")`.
* `decodeReplace` — `bytes.decode("utf-8", errors="replace")`.
* `splitlines`, `isBlank` — `str.splitlines` and the test `not line.strip()`.
* `writeText`, `readText` — `Path.write_text` and `Path.read_text`.

## Main results

* `fromUtf8_toUtf8` — decoding inverts encoding.
* `splitlines_append` — a line without a line break, cut off at its newline.
* `readText_writeText` — **a text without carriage returns survives a file**, whatever the
  line separator of the system.
-/

namespace Raydriver

/-! ### UTF-8 -/

/-- The bytes of a character. -/
def charBytes (c : Char) : Bytes :=
  let n := c.toNat
  if n < 0x80 then [UInt8.ofNat n]
  else if n < 0x800 then [UInt8.ofNat (0xC0 + n / 64), UInt8.ofNat (0x80 + n % 64)]
  else if n < 0x10000 then
    [UInt8.ofNat (0xE0 + n / 4096), UInt8.ofNat (0x80 + n / 64 % 64),
      UInt8.ofNat (0x80 + n % 64)]
  else
    [UInt8.ofNat (0xF0 + n / 262144), UInt8.ofNat (0x80 + n / 4096 % 64),
      UInt8.ofNat (0x80 + n / 64 % 64), UInt8.ofNat (0x80 + n % 64)]

/-- `str.encode("utf-8")`; a text of scalar values has nothing to replace. -/
def toUtf8 (t : Text) : Bytes := t.flatMap charBytes

@[simp] theorem toUtf8_nil : toUtf8 [] = [] := rfl

@[simp] theorem toUtf8_cons (c : Char) (t : Text) : toUtf8 (c :: t) = charBytes c ++ toUtf8 t :=
  rfl

@[simp] theorem toUtf8_append (t u : Text) : toUtf8 (t ++ u) = toUtf8 t ++ toUtf8 u :=
  List.flatMap_append

theorem toNat_ofNat_byte {n : ℕ} (h : n < 256) : (UInt8.ofNat n).toNat = n :=
  UInt8.toNat_ofNat_of_lt' h

section Decoding

variable {need min acc : ℕ}

/-- A continuation byte, with more to come. -/
theorem utf8From_cont {v : ℕ} (hv : v < 64) (hneed : need ≠ 0) (r : Bytes) :
    utf8From (need + 1) min acc (UInt8.ofNat (0x80 + v) :: r)
      = utf8From need min (acc * 64 + v) r := by
  have hn : (UInt8.ofNat (0x80 + v)).toNat = 0x80 + v := toNat_ofNat_byte (by omega)
  have hlow : ¬ (UInt8.ofNat (0x80 + v) < 0x80 ∨ 0xC0 ≤ UInt8.ofNat (0x80 + v)) := by
    rw [UInt8.lt_iff_toNat_lt, UInt8.le_iff_toNat_le, hn]
    simp only [UInt8.reduceToNat]
    omega
  rw [utf8From]
  simp only [if_neg hlow, hn, Nat.add_sub_cancel_left, if_pos hneed]

/-- The last continuation byte of a scalar value in its shortest form. -/
theorem utf8From_last {v : ℕ} {c : Char} (hv : v < 64) (hc : c.toNat = acc * 64 + v)
    (hmin : min ≤ c.toNat) (r : Bytes) :
    utf8From 1 min acc (UInt8.ofNat (0x80 + v) :: r) = (fromUtf8 r).map (c :: ·) := by
  have hn : (UInt8.ofNat (0x80 + v)).toNat = 0x80 + v := toNat_ofNat_byte (by omega)
  have hlow : ¬ (UInt8.ofNat (0x80 + v) < 0x80 ∨ 0xC0 ≤ UInt8.ofNat (0x80 + v)) := by
    rw [UInt8.lt_iff_toNat_lt, UInt8.le_iff_toNat_le, hn]
    simp only [UInt8.reduceToNat]
    omega
  have hvalid : min ≤ acc * 64 + v ∧ (acc * 64 + v).isValidChar := by
    rw [← hc]
    exact ⟨hmin, c.valid⟩
  have hchar : Char.ofNat (acc * 64 + v) = c := by rw [← hc, Char.ofNat_toNat]
  rw [utf8From]
  simp only [if_neg hlow, hn, Nat.add_sub_cancel_left, ne_eq, not_true_eq_false, if_false,
    if_pos hvalid, hchar]
  rfl

/-- The lead byte of a character of two, three or four bytes. -/
theorem utf8From_lead_two {v : ℕ} (hv : v < 32) (r : Bytes) :
    utf8From 0 min acc (UInt8.ofNat (0xC0 + v) :: r) = utf8From 1 0x80 v r := by
  have hn : (UInt8.ofNat (0xC0 + v)).toNat = 0xC0 + v := toNat_ofNat_byte (by omega)
  rw [utf8From]
  simp only [UInt8.lt_iff_toNat_lt, hn, UInt8.reduceToNat]
  rw [if_neg (by omega), if_neg (by omega), if_pos (by omega), Nat.add_sub_cancel_left]

theorem utf8From_lead_three {v : ℕ} (hv : v < 16) (r : Bytes) :
    utf8From 0 min acc (UInt8.ofNat (0xE0 + v) :: r) = utf8From 2 0x800 v r := by
  have hn : (UInt8.ofNat (0xE0 + v)).toNat = 0xE0 + v := toNat_ofNat_byte (by omega)
  rw [utf8From]
  simp only [UInt8.lt_iff_toNat_lt, hn, UInt8.reduceToNat]
  rw [if_neg (by omega), if_neg (by omega), if_neg (by omega), if_pos (by omega),
    Nat.add_sub_cancel_left]

theorem utf8From_lead_four {v : ℕ} (hv : v < 8) (r : Bytes) :
    utf8From 0 min acc (UInt8.ofNat (0xF0 + v) :: r) = utf8From 3 0x10000 v r := by
  have hn : (UInt8.ofNat (0xF0 + v)).toNat = 0xF0 + v := toNat_ofNat_byte (by omega)
  rw [utf8From]
  simp only [UInt8.lt_iff_toNat_lt, hn, UInt8.reduceToNat]
  rw [if_neg (by omega), if_neg (by omega), if_neg (by omega), if_neg (by omega),
    if_pos (by omega), Nat.add_sub_cancel_left]

end Decoding

/-- A character is decoded first. -/
theorem fromUtf8_charBytes (c : Char) (r : Bytes) :
    fromUtf8 (charBytes c ++ r) = (fromUtf8 r).map (c :: ·) := by
  have hmax : c.toNat < 0x110000 := by
    have := c.valid
    rcases this with h | h
    · exact lt_trans h (by decide)
    · exact h.2
  simp only [charBytes]
  split_ifs with h1 h2 h3
  · have hn : (UInt8.ofNat c.toNat).toNat = c.toNat := toNat_ofNat_byte (by omega)
    have hlt : UInt8.ofNat c.toNat < 0x80 := by
      rw [UInt8.lt_iff_toNat_lt, hn]
      exact h1
    rw [fromUtf8, List.singleton_append, utf8From]
    simp only [if_pos hlt, hn, Char.ofNat_toNat]
    rfl
  · rw [fromUtf8]
    simp only [List.cons_append, List.nil_append]
    rw [utf8From_lead_two (by omega), utf8From_last (c := c) (by omega) (by omega) (by omega)]
  · rw [fromUtf8]
    simp only [List.cons_append, List.nil_append]
    rw [utf8From_lead_three (by omega), utf8From_cont (by omega) (by omega),
      utf8From_last (c := c) (by omega) (by omega) (by omega)]
  · rw [fromUtf8]
    simp only [List.cons_append, List.nil_append]
    rw [utf8From_lead_four (by omega), utf8From_cont (by omega) (by omega),
      utf8From_cont (by omega) (by omega), utf8From_last (c := c) (by omega) (by omega) (by omega)]

/-- Decoding inverts encoding. -/
theorem fromUtf8_toUtf8 (t : Text) : fromUtf8 (toUtf8 t) = some t := by
  induction t with
  | nil => rfl
  | cons c t ih => rw [toUtf8_cons, fromUtf8_charBytes, ih, Option.map_some]

theorem toUtf8_injective {t u : Text} (h : toUtf8 t = toUtf8 u) : t = u := by
  have hdecode := congrArg fromUtf8 h
  rw [fromUtf8_toUtf8, fromUtf8_toUtf8] at hdecode
  exact Option.some.inj hdecode

/-- The replacement character. -/
def replacement : Char := '\uFFFD'

/-- What a lead byte announces: the number of continuation bytes, the range of the first
of them and the bits read so far. -/
def leadByte (a : ℕ) : Option (ℕ × ℕ × ℕ × ℕ) :=
  if 0xC2 ≤ a ∧ a < 0xE0 then some (1, 0x80, 0xBF, a - 0xC0)
  else if a = 0xE0 then some (2, 0xA0, 0xBF, 0)
  else if a = 0xED then some (2, 0x80, 0x9F, 0xD)
  else if 0xE0 < a ∧ a < 0xF0 then some (2, 0x80, 0xBF, a - 0xE0)
  else if a = 0xF0 then some (3, 0x90, 0xBF, 0)
  else if a = 0xF4 then some (3, 0x80, 0x8F, 4)
  else if 0xF0 < a ∧ a < 0xF4 then some (3, 0x80, 0xBF, a - 0xF0)
  else none

/-- Decoding in the middle of a character: `need` continuation bytes are owed, the next
one between `lo` and `hi`.  What cannot be continued is replaced as a whole. -/
def decodeReplaceFrom (need lo hi acc : ℕ) : Bytes → Text
  | [] => if need = 0 then [] else [replacement]
  | a :: r =>
    let n := a.toNat
    if need ≠ 0 ∧ lo ≤ n ∧ n ≤ hi then
      let v := acc * 64 + (n - 0x80)
      if need = 1 then Char.ofNat v :: decodeReplaceFrom 0 0 0 0 r
      else decodeReplaceFrom (need - 1) 0x80 0xBF v r
    else
      (if need = 0 then [] else [replacement]) ++
        if n < 0x80 then Char.ofNat n :: decodeReplaceFrom 0 0 0 0 r
        else
          match leadByte n with
          | some (need, lo, hi, acc) => decodeReplaceFrom need lo hi acc r
          | none => replacement :: decodeReplaceFrom 0 0 0 0 r

/-- `bytes.decode("utf-8", errors="replace")`. -/
def decodeReplace (b : Bytes) : Text := decodeReplaceFrom 0 0 0 0 b

example : decodeReplace [0x61, 0xE2, 0x82, 0x62, 0xC0] = ['a', '\uFFFD', 'b', '\uFFFD'] := by
  decide

/-! ### Lines -/

/-- The characters `str.splitlines` cuts at. -/
def isLineBreak (c : Char) : Bool :=
  (0xA ≤ c.toNat && c.toNat ≤ 0xD) || (0x1C ≤ c.toNat && c.toNat ≤ 0x1E) ||
    c.toNat == 0x85 || c.toNat == 0x2028 || c.toNat == 0x2029

/-- The lines of `cur ++ t`, of which `cur` is already read. -/
def splitlinesFrom (cur : Text) : Text → List Text
  | [] => if cur.isEmpty then [] else [cur]
  | '\r' :: '\n' :: t => cur :: splitlinesFrom [] t
  | c :: t => if isLineBreak c then cur :: splitlinesFrom [] t else splitlinesFrom (cur ++ [c]) t

/-- `str.splitlines`. -/
def splitlines (t : Text) : List Text := splitlinesFrom [] t

example : splitlines "a\r\n\nb\u2028c".toList = [['a'], [], ['b'], ['c']] := by decide

/-- `str.isspace` of a character. -/
def isSpace (c : Char) : Bool := isWhitespace c || (0x1C ≤ c.toNat && c.toNat ≤ 0x1F)

/-- `not line.strip()`. -/
def isBlank (t : Text) : Bool := t.all isSpace

/-- `str.rstrip("\r\n")`. -/
def rstripNewlines (t : Text) : Text := t.rdropWhile fun c => c = '\r' || c = '\n'

theorem splitlinesFrom_append : ∀ (l cur t : Text), (∀ c ∈ l, isLineBreak c = false) →
    splitlinesFrom cur (l ++ '\n' :: t) = (cur ++ l) :: splitlines t := by
  intro l
  induction l with
  | nil =>
    intro cur t _
    have hbreak : isLineBreak '\n' = true := by decide
    rw [List.nil_append, splitlinesFrom.eq_3 _ _ _ (by simp), if_pos hbreak, List.append_nil]
    rfl
  | cons c l ih =>
    intro cur t hl
    have hc := hl c (by simp)
    -- the carriage return is a line break
    have hcr : c ≠ '\r' := by
      rintro rfl
      exact absurd hc (by decide)
    have hrest := ih (cur ++ [c]) t fun d hd => hl d (List.mem_cons_of_mem _ hd)
    rw [List.cons_append, splitlinesFrom.eq_3 _ _ _ (fun _ h _ => hcr h), hc,
      if_neg Bool.false_ne_true, hrest, List.append_assoc, List.singleton_append]

/-- A line without a line break, cut off at its newline. -/
theorem splitlines_append {l : Text} (h : ∀ c ∈ l, isLineBreak c = false) (t : Text) :
    splitlines (l ++ '\n' :: t) = l :: splitlines t :=
  splitlinesFrom_append l [] t h

/-! ### Text files -/

/-- `os.linesep`. -/
inductive Linesep where
  | lf
  | crlf
  deriving DecidableEq, Repr

/-- A newline as it is written to a text file. -/
def Linesep.newline : Linesep → Text
  | .lf => ['\n']
  | .crlf => ['\r', '\n']

/-- `Path.write_text(t, encoding="utf-8")`: the bytes of the file. -/
def writeText (sep : Linesep) (t : Text) : Bytes :=
  toUtf8 (t.flatMap fun c => if c = '\n' then sep.newline else [c])

/-- Universal newlines. -/
def universalNewlines : Text → Text
  | [] => []
  | '\r' :: '\n' :: t => '\n' :: universalNewlines t
  | c :: t => (if c = '\r' then '\n' else c) :: universalNewlines t

/-- `Path.read_text(encoding="utf-8")`; `none` where the file cannot be decoded. -/
def readText (b : Bytes) : Option Text := (fromUtf8 b).map universalNewlines

theorem universalNewlines_newline (sep : Linesep) (t : Text) :
    universalNewlines (sep.newline ++ t) = '\n' :: universalNewlines t := by
  cases sep with
  | lf =>
    rw [Linesep.newline, List.singleton_append, universalNewlines.eq_3 _ _ (by simp)]
    rfl
  | crlf => rfl

/-- **A text without carriage returns survives a file.** -/
theorem readText_writeText {t : Text} (h : '\r' ∉ t) (sep : Linesep) :
    readText (writeText sep t) = some t := by
  rw [readText, writeText, fromUtf8_toUtf8, Option.map_some]
  congr 1
  induction t with
  | nil => rfl
  | cons c t ih =>
    have hrest := ih fun hm => h (List.mem_cons_of_mem _ hm)
    rw [List.flatMap_cons]
    split_ifs with hc
    · rw [universalNewlines_newline, hrest, hc]
    · have hcr : c ≠ '\r' := fun e => h (by simp [e])
      rw [List.singleton_append, universalNewlines.eq_3 _ _ (fun _ h _ => hcr h), hrest,
        if_neg hcr]

end Raydriver
