import Raydriver.Analyzer.PyText
import Raydriver.Core.Template
import Raydriver.Grbl.Parser

/-!
# What the emulated firmware reads

The emulator decodes each byte on its own, so a line holds characters below 256.  It
reads a line the way Python does: `str.strip`, `str.upper`, `int` and two regular
expressions, which are written out as readers of a text from its head.

What Python does with floats is a parameter: the emulator runs over any type with the
operations of `PyFloat`.

## Main definitions

* `PyFloat` — the operations on floats, with an instance on exact decimals.
* `upper`, `strip`, `pyInt` — the string methods.
* `readDecimal`, `readWord`, `parseWords` — the words of a line.
-/

namespace Raydriver.Emulator

/-! ### Floats -/

/-- What Python does with floats, for a type `F` in their place. -/
class PyFloat (F : Type) where
  add : F → F → F
  sub : F → F → F
  mul : F → F → F
  div : F → F → F
  /-- `a < b`. -/
  lt : F → F → Bool
  /-- `a == b`. -/
  eq : F → F → Bool
  /-- The float that an int is in an operation with floats. -/
  ofInt : ℤ → F
  /-- `float(t)` for a decimal numeral. -/
  decimal : Text → F
  /-- `float(t)` for any text; it may raise. -/
  parse : Text → Option F
  /-- `int(v)` for a number read from a line, which is finite. -/
  trunc : F → ℤ
  /-- `int(round(v))`, which raises on infinities. -/
  round : F → Option ℤ
  /-- `math.dist` in three dimensions, of the three differences. -/
  dist : F → F → F → F
  /-- `{v:.nf}`. -/
  fixed : ℕ → F → Text

namespace PyFloat

variable {F : Type} [PyFloat F]

/-- A literal of the source. -/
def lit (s : String) : F := decimal s.toList

/-- `v in (a, b, ...)`. -/
def isIn (v : F) (literals : List String) : Bool := literals.any fun s => eq v (lit s)

/-- `max(a, b)`. -/
def max (a b : F) : F := if lt a b then b else a

/-- `a <= b`. -/
def le (a b : F) : Bool := lt a b || eq a b

end PyFloat

/-! ### String methods -/

/-- `str.upper` of a character below 256. -/
def upperChar (c : Char) : Text :=
  if 'a' ≤ c ∧ c ≤ 'z' then [Char.ofNat (c.toNat - 32)]
  else if c.toNat = 0xDF then ['S', 'S']
  else if c.toNat = 0xFF then [Char.ofNat 0x178]
  else if c.toNat = 0xB5 then [Char.ofNat 0x39C]
  else if 0xE0 ≤ c.toNat ∧ c.toNat ≤ 0xFE ∧ c.toNat ≠ 0xF7 then [Char.ofNat (c.toNat - 32)]
  else [c]

/-- `str.upper`. -/
def upper (t : Text) : Text := t.flatMap upperChar

/-- `str.strip`. -/
def strip (t : Text) : Text := (t.dropWhile isSpace).rdropWhile isSpace

/-- Digits, with single underscores between them. -/
def digitGroups (t : Text) : Option ℤ :=
  let groups := splitOn '_' t
  if groups.all fun g => !g.isEmpty && g.all isDigit then
    (parseNat groups.flatten).map fun n => (n : ℤ)
  else none

/-- `int(t)`, or nothing where it raises a `ValueError`. -/
def pyInt (t : Text) : Option ℤ :=
  match strip t with
  | '-' :: t => (digitGroups t).map fun v => -v
  | '+' :: t => digitGroups t
  | t => digitGroups t

example : [" 25".toList, "-1_0".toList, "1__0".toList, "NAN".toList].map pyInt =
    [some 25, some (-10), none, none] := by decide

/-! ### Words -/

/-- `[-+]?[0-9]*\.?[0-9]+` at the head of a text: the numeral and the rest. -/
def readDecimal (t : Text) : Option (Text × Text) :=
  let (sign, t) : Text × Text := match t with
    | '-' :: t => (['-'], t)
    | '+' :: t => (['+'], t)
    | t => ([], t)
  let whole := t.takeWhile isDigit
  let rest := t.drop whole.length
  let frac := (rest.drop 1).takeWhile isDigit
  -- the dot is only taken together with digits behind it
  if rest.head? = some '.' ∧ frac ≠ [] then
    some (sign ++ whole ++ '.' :: frac, (rest.drop 1).drop frac.length)
  else if whole ≠ [] then some (sign ++ whole, rest)
  else none

/-- A letter with its number. -/
structure Word (F : Type) where
  letter : Char
  value : F
  deriving DecidableEq, Repr

section Words

variable {F : Type} [PyFloat F]

/-- `_WORD_RE` at the head of a text: the word and the rest. -/
def readWord : Text → Option (Word F × Text)
  | [] => none
  | c :: t =>
    if 'A' ≤ c ∧ c ≤ 'Z' then
      (readDecimal (t.dropWhile isSpace)).map fun (number, rest) =>
        (⟨c, PyFloat.decimal number⟩, rest)
    else none

/-- `_WORD_RE.finditer`; every match and every miss takes a character at least. -/
def findWords : ℕ → Text → List (Word F)
  | 0, _ => []
  | n + 1, t =>
    match readWord t with
    | some (w, rest) => w :: findWords n rest
    | none => findWords n t.tail

/-- `_parse_words`: the words of a line without its comments. -/
def parseWords (raw : Text) : List (Word F) :=
  let line := (cutGroups raw.length raw).takeWhile fun c => c != ';'
  let line := upper (strip line)
  findWords line.length line

/-- `next((v for w, v, _ in words if w == letter), default)`. -/
def firstValue (letter : Char) (words : List (Word F)) : Option F :=
  (words.find? fun w => w.letter = letter).map Word.value

end Words

/-! ### Exact decimals -/

/-- The value of a decimal numeral. -/
def decimalValue (t : Text) : ℚ :=
  let (sign, t) : ℚ × Text := match t with
    | '-' :: t => (-1, t)
    | '+' :: t => (1, t)
    | t => (1, t)
  let whole := t.takeWhile isDigit
  let frac := (t.drop (whole.length + 1)).takeWhile isDigit
  sign * (((digitsFrom 0 whole).getD 0 : ℕ) + ((digitsFrom 0 frac).getD 0 : ℕ) / 10 ^ frac.length)

/-- Floats on decimals, as exact as they are there; roots where they are rational. -/
instance : PyFloat ℚ where
  add := (· + ·)
  sub := (· - ·)
  mul := (· * ·)
  div := (· / ·)
  lt a b := decide (a < b)
  eq a b := decide (a = b)
  ofInt v := v
  decimal := decimalValue
  parse t := if (readDecimal t).map Prod.snd = some [] then some (decimalValue t) else none
  trunc v := if v < 0 then v.ceil else v.floor
  round v := some (roundHalfEven v)
  dist x y z :=
    let sq := x * x + y * y + z * z
    (sq.num.toNat.sqrt : ℚ) / sq.den.sqrt
  fixed := fixedDecimal

example : parseWords (F := ℚ) "g1 x-2.50 (fast 7) y.5. f 600 ; z9".toList =
    [⟨'G', 1⟩, ⟨'X', -5 / 2⟩, ⟨'Y', 1 / 2⟩, ⟨'F', 600⟩] := by decide +kernel

end Raydriver.Emulator
