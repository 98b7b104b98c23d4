import Mathlib.Algebra.Order.Field.Basic
import Mathlib.Data.Rat.Floor
import Mathlib.Tactic.FieldSimp
import Mathlib.Tactic.Linarith
import Mathlib.Tactic.Ring
import Raydriver.Core.Template
import Raydriver.Grbl.Attributes
import Raydriver.Grbl.Settings

/-!
# Numerals that are read back

A firmware prints a coordinate with a fixed number of decimals.  The driver reads the numeral as
the coordinate rounded, and three of them behind a label as a position.

## Main definitions

* `rounded n v` — the number that is printed for `v` with `n` decimals.
* `posText` — three coordinates with three decimals.

## Main results

* `readNumber_fixedDecimal` — a numeral is read as the rounded number.
* `abs_rounded_sub_le` — **which is off by half a unit of the last decimal at most**.
* `parsePosition_label` — a labelled position is read coordinate by coordinate.
-/

namespace Raydriver

/-! ### Digits -/

theorem digitsFrom_eq {t : Text} (h : ∀ c ∈ t, isDigit c = true) (acc : ℕ) :
    digitsFrom acc t = some (Nat.ofDigitChars 10 t acc) := by
  induction t generalizing acc with
  | nil => rfl
  | cons c t ih =>
    have hc : '0' ≤ c ∧ c ≤ '9' := by simpa [isDigit] using h c List.mem_cons_self
    rw [digitsFrom, digitValue, if_pos hc, Option.bind_some,
      ih (fun d hd => h d (List.mem_cons_of_mem c hd)), Nat.ofDigitChars_cons]
    rfl

theorem intText_ofNat (n : ℕ) : intText n = Nat.toDigits 10 n := Nat.toList_repr

theorem isDigit_intText {n : ℕ} : ∀ c ∈ intText n, isDigit c = true := by
  intro c hc
  rw [intText_ofNat] at hc
  exact Nat.isDigit_of_mem_toDigits (by decide) (by decide) hc

theorem intText_ne_nil (n : ℕ) : intText n ≠ [] := by
  rw [intText_ofNat]
  exact Nat.toDigits_ne_nil

theorem digitsFrom_intText (n : ℕ) : digitsFrom 0 (intText n) = some n := by
  rw [digitsFrom_eq isDigit_intText, intText_ofNat, Nat.ofDigitChars_ten_toDigits]

theorem lastDigits_succ (n k : ℕ) :
    lastDigits (n + 1) k = Char.ofNat (48 + k / 10 ^ n % 10) :: lastDigits n k := by
  simp [lastDigits, List.range_succ]

theorem digit_spec : ∀ d < 10, isDigit (Char.ofNat (48 + d)) = true ∧
    digitValue (Char.ofNat (48 + d)) = some d := by decide

theorem isDigit_lastDigits {n k : ℕ} : ∀ c ∈ lastDigits n k, isDigit c = true := by
  intro c hc
  obtain ⟨i, -, rfl⟩ := List.mem_map.mp hc
  exact (digit_spec _ (Nat.mod_lt _ (by decide))).1

theorem length_lastDigits (n k : ℕ) : (lastDigits n k).length = n := by
  simp [lastDigits]

/-- The digits of a number below a power of ten are added to what is read so far. -/
theorem digitsFrom_lastDigits (n k acc : ℕ) :
    digitsFrom acc (lastDigits n k) = some (acc * 10 ^ n + k % 10 ^ n) := by
  induction n generalizing acc with
  | zero => simp [lastDigits, digitsFrom, Nat.mod_one]
  | succ n ih =>
    rw [lastDigits_succ, digitsFrom, (digit_spec _ (Nat.mod_lt _ (by decide))).2,
      Option.bind_some, ih, Nat.mod_pow_succ]
    ring_nf

/-! ### Rounding -/

/-- The number that is printed for `v` with `n` decimals. -/
def rounded (n : ℕ) (v : ℚ) : ℚ :=
  (if v < 0 then -1 else 1) * ((roundHalfEven (|v| * 10 ^ n)).toNat / 10 ^ n)

theorem abs_roundHalfEven_sub_le (v : ℚ) : |(roundHalfEven v : ℚ) - v| ≤ 1 / 2 := by
  have hfloor : (v.floor : ℚ) ≤ v := Rat.floor_le v
  have hlt : v < v.floor + 1 := by exact_mod_cast Rat.lt_floor_add_one v
  unfold roundHalfEven
  dsimp only
  split_ifs with h
  · have hhalf : v - v.floor ≤ 1 / 2 := h.elim le_of_lt fun h => h.1.le
    rw [abs_le]
    constructor <;> linarith
  · have hhalf : 1 / 2 ≤ v - v.floor := by
      by_contra hno
      exact h (.inl (lt_of_not_ge hno))
    push_cast
    rw [abs_le]
    constructor <;> linarith

theorem roundHalfEven_nonneg {v : ℚ} (h : 0 ≤ v) : 0 ≤ roundHalfEven v := by
  have hfloor : 0 ≤ v.floor := Rat.le_floor_iff.mpr (by exact_mod_cast h)
  unfold roundHalfEven
  dsimp only
  split_ifs <;> omega

/-- **A printed number is off by half a unit of its last decimal at most.** -/
theorem abs_rounded_sub_le (n : ℕ) (v : ℚ) : |rounded n v - v| ≤ 1 / 2 / 10 ^ n := by
  have hpow : (0 : ℚ) < 10 ^ n := by positivity
  have hnonneg : 0 ≤ |v| * 10 ^ n := mul_nonneg (abs_nonneg v) hpow.le
  have hcast : (((roundHalfEven (|v| * 10 ^ n)).toNat : ℤ) : ℚ) = roundHalfEven (|v| * 10 ^ n) := by
    rw [Int.toNat_of_nonneg (roundHalfEven_nonneg hnonneg)]
  have hround := abs_roundHalfEven_sub_le (|v| * 10 ^ n)
  have hsign : rounded n v - v = (if v < 0 then -1 else 1) *
      ((roundHalfEven (|v| * 10 ^ n) - |v| * 10 ^ n) / 10 ^ n) := by
    rw [← hcast, Int.cast_natCast, rounded]
    split_ifs with hneg
    · rw [abs_of_neg hneg]
      field_simp
      ring
    · rw [abs_of_nonneg (not_lt.mp hneg)]
      field_simp
  have habs : |(if v < 0 then -1 else 1 : ℚ)| = 1 := by split_ifs <;> simp
  rw [hsign, abs_mul, habs, one_mul, abs_div, abs_of_pos hpow]
  exact div_le_div_of_nonneg_right hround hpow.le

/-! ### Reading -/

section Reading

variable {n : ℕ} {v : ℚ} {rest : Text}

/-- Digits, a point and digits, behind a sign that is read. -/
theorem readDigits_decimal (k : ℕ) (hn : rest.head?.all (fun c => !isDigit c) = true) :
    readDigits (intText (k / 10 ^ n : ℕ) ++ '.' :: (lastDigits n k ++ rest)) =
        some (intText (k / 10 ^ n : ℕ), '.' :: (lastDigits n k ++ rest)) ∧
      (lastDigits n k ++ rest).takeWhile isDigit = lastDigits n k := by
  constructor
  · exact readDigits_append (List.all_eq_true.mpr isDigit_intText)
      (List.isEmpty_eq_false_iff.mpr (intText_ne_nil _)) rfl
  · rw [List.takeWhile_append_of_pos isDigit_lastDigits]
    cases rest with
    | nil => exact List.append_nil _
    | cons c rest =>
      rw [List.takeWhile_cons_of_neg (by simpa using hn), List.append_nil]

/-- **A numeral is read as the rounded number.** -/
theorem readNumber_fixedDecimal (hn : n ≠ 0)
    (hrest : rest.head?.all (fun c => !isDigit c) = true) :
    readNumber (fixedDecimal n v ++ rest) = some (rounded n v, rest) := by
  obtain ⟨k, hk⟩ : ∃ k, (roundHalfEven (|v| * 10 ^ n)).toNat = k := ⟨_, rfl⟩
  obtain ⟨hdigits, hwhile⟩ := readDigits_decimal k hrest (n := n)
  have hwhole : ((k : ℤ) / 10 ^ n) = ((k / 10 ^ n : ℕ) : ℤ) := by push_cast; rfl
  have htext : fixedDecimal n v ++ rest = (if v < 0 then ['-'] else []) ++
      (intText (k / 10 ^ n : ℕ) ++ '.' :: (lastDigits n k ++ rest)) := by
    unfold fixedDecimal
    dsimp only
    rw [hk, if_neg hn, hwhole, List.append_assoc, List.append_assoc, List.cons_append]
  -- the digits before and behind the point are one number
  have hvalue : ((k / 10 ^ n : ℕ) : ℚ) + ((k % 10 ^ n : ℕ) : ℚ) / (10 ^ n : ℕ) = k / 10 ^ n := by
    have hdiv : ((10 ^ n * (k / 10 ^ n) + k % 10 ^ n : ℕ) : ℚ) = k := by rw [Nat.div_add_mod]
    rw [← hdiv]
    push_cast
    field_simp
  have hdrop : (lastDigits n k ++ rest).drop n = rest := List.drop_left' (length_lastDigits n k)
  rw [htext, rounded, hk]
  split_ifs with hneg
  · simp only [List.singleton_append, readNumber, hdigits, Option.map_some, hwhile,
      digitsFrom_intText, digitsFrom_lastDigits, length_lastDigits, hdrop, Option.getD_some,
      zero_mul, zero_add, hvalue]
  · -- the first digit is no sign
    rw [List.nil_append]
    obtain ⟨c, t, hct⟩ := List.exists_cons_of_ne_nil (intText_ne_nil (k / 10 ^ n))
    have hc : c ≠ '-' := by
      rintro rfl
      have hdigit := isDigit_intText (n := k / 10 ^ n) '-' (hct ▸ List.mem_cons_self)
      exact absurd hdigit (by decide)
    unfold readNumber
    rw [hct] at hdigits ⊢
    rw [List.cons_append] at hdigits ⊢
    split
    rename_i sign t' hmatch
    split at hmatch
    · exact absurd (List.cons.inj ‹_›).1 hc
    · cases hmatch
      rw [hdigits, ← hct]
      simp only [Option.map_some, hwhile, digitsFrom_intText, digitsFrom_lastDigits,
        length_lastDigits, hdrop, Option.getD_some, zero_mul, zero_add, hvalue]

end Reading

/-! ### Positions -/

/-- Three coordinates with three decimals. -/
def posText (x y z : ℚ) : Text :=
  fixedDecimal 3 x ++ ',' :: (fixedDecimal 3 y ++ ',' :: fixedDecimal 3 z)

section Positions

variable {x y z : ℚ}

theorem readPosition_posText :
    readPosition (':' :: posText x y z) = some [rounded 3 x, rounded 3 y, rounded 3 z] := by
  have hx : readNumber (posText x y z) =
      some (rounded 3 x, ',' :: (fixedDecimal 3 y ++ ',' :: fixedDecimal 3 z)) :=
    readNumber_fixedDecimal (by decide) rfl
  have hy : readNumber (fixedDecimal 3 y ++ ',' :: fixedDecimal 3 z) =
      some (rounded 3 y, ',' :: fixedDecimal 3 z) := readNumber_fixedDecimal (by decide) rfl
  have hz : readNumber (fixedDecimal 3 z) = some (rounded 3 z, []) := by
    have h := @readNumber_fixedDecimal 3 z [] (by decide) rfl
    rwa [List.append_nil] at h
  have htail : readNumbers 3 (',' :: (fixedDecimal 3 y ++ ',' :: fixedDecimal 3 z)) =
      [rounded 3 y, rounded 3 z] := by
    simp only [readNumbers, hy, hz]
  show (readNumber (posText x y z)).bind _ = _
  rw [hx, Option.bind_some]
  simp only [htail]

theorem search_readPosition {label t : Text} {vs : List ℚ} (hlabel : ':' ∉ label)
    (h : readPosition (':' :: t) = some vs) :
    search readPosition (label ++ ':' :: t) = some vs := by
  induction label with
  | nil => exact search_of_read h
  | cons c label ih =>
    rw [List.mem_cons, not_or] at hlabel
    have hc : readPosition (c :: (label ++ ':' :: t)) = none := by
      unfold readPosition
      split
      · exact absurd (List.cons.inj ‹_›).1.symm hlabel.1
      · rfl
    rw [List.cons_append, search, hc]
    exact ih hlabel.2

/-- **A labelled position is read coordinate by coordinate.** -/
theorem parsePosition_label {label : Text} (hlabel : ':' ∉ label) :
    parsePositionAttribute (label ++ ":".toList ++ posText x y z) label =
      some [some (rounded 3 x), some (rounded 3 y), some (rounded 3 z)] := by
  have hstart : startsWith (label ++ ":".toList) (label ++ ":".toList ++ posText x y z) = true :=
    List.isPrefixOf_iff_prefix.mpr (List.prefix_append _ _)
  have hsearch : search readPosition (label ++ ":".toList ++ posText x y z) =
      some [rounded 3 x, rounded 3 y, rounded 3 z] := by
    rw [List.append_assoc]
    exact search_readPosition hlabel readPosition_posText
  rw [parsePositionAttribute, if_pos hstart, hsearch]
  rfl

end Positions

/-! ### Characters -/

theorem isSettingChar_intText {v : ℤ} : ∀ c ∈ intText v, isSettingChar c = true := by
  intro c hc
  unfold isSettingChar
  cases v with
  | ofNat n =>
    rw [isDigit_intText c hc]
    rfl
  | negSucc n =>
    have htext : intText (Int.negSucc n) = '-' :: intText ((n + 1 : ℕ) : ℤ) := String.toList_append
    rw [htext] at hc
    rcases List.mem_cons.mp hc with rfl | hc
    · rfl
    · rw [isDigit_intText c hc]
      rfl

theorem isSettingChar_fixedDecimal {n : ℕ} {v : ℚ} :
    ∀ c ∈ fixedDecimal n v, isSettingChar c = true := by
  intro c hc
  unfold fixedDecimal at hc
  simp only [List.mem_append] at hc
  rcases hc with (hc | hc) | hc
  · split_ifs at hc
    · rw [List.mem_singleton.mp hc]
      rfl
    · exact absurd hc List.not_mem_nil
  · exact isSettingChar_intText c hc
  · split_ifs at hc
    · exact absurd hc List.not_mem_nil
    · rcases List.mem_cons.mp hc with rfl | hc
      · rfl
      · rw [isSettingChar, isDigit_lastDigits c hc]
        rfl

end Raydriver
