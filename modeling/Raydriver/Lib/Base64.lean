import Mathlib.Data.List.Basic
import Mathlib.Tactic.Common

/-!
# Base64

The standard alphabet with padding, as an encoder and the lenient decoder that most
libraries ship: characters outside the alphabet are skipped, and a padding that closes a
group of four ends the input.

## Main definitions

* `Base64.encode` — three bytes become four characters, a shorter rest is padded.
* `Base64.decode` — `none` where a group is left open.

## Main results

* `Base64.decode_encode` — **decoding inverts encoding**.
* `Base64.encode_lt` — the encoding is ASCII.
-/

namespace Base64

/-- The alphabet, in the order of the six-bit values. -/
def alphabet : List Char :=
  "ABCDEFGHIJKLMNOPQRSTUVWXYZabcdefghijklmnopqrstuvwxyz0123456789+/".toList

/-- The character of a six-bit value. -/
def char (n : ℕ) : Char := alphabet.getD n 'A'

/-- The six-bit value of a character of the alphabet. -/
def value (c : Char) : Option ℕ := alphabet.idxOf? c

/-- Two, three or four characters for one, two or three bytes, padded to four. -/
def encode : List UInt8 → List Char
  | [] => []
  | [a] => [char (a.toNat / 4), char (a.toNat % 4 * 16), '=', '=']
  | [a, b] =>
    [char (a.toNat / 4), char (a.toNat % 4 * 16 + b.toNat / 16), char (b.toNat % 16 * 4), '=']
  | a :: b :: c :: l =>
    char (a.toNat / 4) :: char (a.toNat % 4 * 16 + b.toNat / 16) ::
      char (b.toNat % 16 * 4 + c.toNat / 64) :: char (c.toNat % 64) :: encode l

/-- Decoding `pos` characters into a group of four: `left` holds the bits not yet
emitted, `pads` counts the padding behind them. -/
def decodeFrom (pos left pads : ℕ) : List Char → Option (List UInt8)
  | [] => if pos = 0 then some [] else none
  | c :: l =>
    if c = '=' then
      if pos < 2 then decodeFrom pos left pads l
      else if 4 ≤ pos + (pads + 1) then some []
      else decodeFrom pos left (pads + 1) l
    else
      match value c with
      | none => decodeFrom pos left pads l
      | some v =>
        match pos with
        | 0 => decodeFrom 1 v 0 l
        | 1 => (decodeFrom 2 (v % 16) 0 l).map (UInt8.ofNat (left * 4 + v / 16) :: ·)
        | 2 => (decodeFrom 3 (v % 4) 0 l).map (UInt8.ofNat (left * 16 + v / 4) :: ·)
        | _ => (decodeFrom 0 0 0 l).map (UInt8.ofNat (left * 64 + v) :: ·)

/-- The bytes of an encoded text, if it is one. -/
def decode (l : List Char) : Option (List UInt8) := decodeFrom 0 0 0 l

/-! ### The alphabet -/

/-- What the decoder and a reader of ASCII need to know about a character of the alphabet. -/
theorem char_spec : ∀ n < 64,
    char n ≠ '=' ∧ value (char n) = some n ∧ (char n).toNat < 128 := by decide +kernel

variable {n : ℕ}

theorem char_ne_pad (h : n < 64) : char n ≠ '=' := (char_spec n h).1

theorem value_char (h : n < 64) : value (char n) = some n := (char_spec n h).2.1

theorem char_lt (h : n < 64) : (char n).toNat < 128 := (char_spec n h).2.2

/-! ### Decoding the encoding -/

section Groups

variable {left pads : ℕ} {l : List Char}

-- made once here for the lemmas of the group positions
attribute [local simp] encode decodeFrom

theorem decodeFrom_zero (h : n < 64) :
    decodeFrom 0 left pads (char n :: l) = decodeFrom 1 n 0 l := by
  simp only [decodeFrom, if_neg (char_ne_pad h), value_char h]

theorem decodeFrom_one (h : n < 64) :
    decodeFrom 1 left pads (char n :: l)
      = (decodeFrom 2 (n % 16) 0 l).map (UInt8.ofNat (left * 4 + n / 16) :: ·) := by
  simp only [decodeFrom, if_neg (char_ne_pad h), value_char h]

theorem decodeFrom_two (h : n < 64) :
    decodeFrom 2 left pads (char n :: l)
      = (decodeFrom 3 (n % 4) 0 l).map (UInt8.ofNat (left * 16 + n / 4) :: ·) := by
  simp only [decodeFrom, if_neg (char_ne_pad h), value_char h]

theorem decodeFrom_three (h : n < 64) :
    decodeFrom 3 left pads (char n :: l)
      = (decodeFrom 0 0 0 l).map (UInt8.ofNat (left * 64 + n) :: ·) := by
  simp only [decodeFrom, if_neg (char_ne_pad h), value_char h]

/-- A padding of two closes a group of two characters, one of one a group of three. -/
theorem decodeFrom_pad_two : decodeFrom 2 left 0 ['=', '='] = some [] := by
  simp [decodeFrom]

theorem decodeFrom_pad_three : decodeFrom 3 left 0 ['='] = some [] := by
  simp [decodeFrom]

end Groups

/-- The bits of a byte, put together again. -/
theorem ofNat_eq {a : UInt8} {m : ℕ} (h : m = a.toNat) : UInt8.ofNat m = a := by
  rw [h, UInt8.ofNat_toNat]

/-- **Decoding inverts encoding.** -/
theorem decode_encode (l : List UInt8) : decode (encode l) = some l := by
  -- a byte is below 256, so its parts are six-bit values
  have hbyte : ∀ a : UInt8, a.toNat < 256 := fun a => UInt8.toNat_lt a
  unfold decode
  induction l using encode.induct with
  | case1 => rfl
  | case2 a =>
    have ha := hbyte a
    rw [encode, decodeFrom_zero (by omega), decodeFrom_one (by omega), decodeFrom_pad_two]
    have hfirst : UInt8.ofNat (a.toNat / 4 * 4 + a.toNat % 4 * 16 / 16) = a := ofNat_eq (by omega)
    rw [hfirst]
    rfl
  | case3 a b =>
    have ha := hbyte a
    have hb := hbyte b
    rw [encode, decodeFrom_zero (by omega), decodeFrom_one (by omega),
      decodeFrom_two (by omega), decodeFrom_pad_three]
    have hfirst : UInt8.ofNat
        (a.toNat / 4 * 4 + (a.toNat % 4 * 16 + b.toNat / 16) / 16) = a := ofNat_eq (by omega)
    have hsecond : UInt8.ofNat
        ((a.toNat % 4 * 16 + b.toNat / 16) % 16 * 16 + b.toNat % 16 * 4 / 4) = b :=
      ofNat_eq (by omega)
    rw [hfirst, hsecond]
    rfl
  | case4 a b c l ih =>
    have ha := hbyte a
    have hb := hbyte b
    have hc := hbyte c
    rw [encode, decodeFrom_zero (by omega), decodeFrom_one (by omega),
      decodeFrom_two (by omega), decodeFrom_three (by omega), ih]
    have hfirst : UInt8.ofNat
        (a.toNat / 4 * 4 + (a.toNat % 4 * 16 + b.toNat / 16) / 16) = a := ofNat_eq (by omega)
    have hsecond : UInt8.ofNat ((a.toNat % 4 * 16 + b.toNat / 16) % 16 * 16 +
        (b.toNat % 16 * 4 + c.toNat / 64) / 4) = b := ofNat_eq (by omega)
    have hthird : UInt8.ofNat
        ((b.toNat % 16 * 4 + c.toNat / 64) % 4 * 64 + c.toNat % 64) = c := ofNat_eq (by omega)
    rw [hfirst, hsecond, hthird]
    rfl

/-- The encoding is ASCII. -/
theorem encode_lt (l : List UInt8) : ∀ c ∈ encode l, c.toNat < 128 := by
  have hbyte : ∀ a : UInt8, a.toNat < 256 := fun a => UInt8.toNat_lt a
  have hpad : '='.toNat < 128 := by decide
  induction l using encode.induct with
  | case1 => intro c hc; cases hc
  | case2 a =>
    have ha := hbyte a
    simp only [encode, List.forall_mem_cons, List.not_mem_nil, false_implies, implies_true,
      and_true]
    exact ⟨char_lt (by omega), char_lt (by omega), hpad, hpad⟩
  | case3 a b =>
    have ha := hbyte a
    have hb := hbyte b
    simp only [encode, List.forall_mem_cons, List.not_mem_nil, false_implies, implies_true,
      and_true]
    exact ⟨char_lt (by omega), char_lt (by omega), char_lt (by omega), hpad⟩
  | case4 a b c l ih =>
    have ha := hbyte a
    have hb := hbyte b
    have hc := hbyte c
    simp only [encode, List.forall_mem_cons]
    exact ⟨char_lt (by omega), char_lt (by omega), char_lt (by omega), char_lt (by omega), ih⟩

end Base64
