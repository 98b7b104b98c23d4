import Mathlib.Data.Rat.Floor
import Raydriver.Core.Text

/-!
# Command templates

The callers hand the driver command templates, texts with placeholders `{name}` or
`{name:.Nf}` in them, and the driver fills in the values of a command.  A template is read
in one pass from the left; what `std` prints of a number is a parameter.

## Main definitions

* `Outcome` — a result, an error or a panic.
* `NumberFormat` — what the standard library prints of a number.
* `Arg`, `Arg.render` — an argument, and its text in a placeholder.
* `formatTemplate` — the loop of the driver.
* `Piece`, `scan` — what a template consists of, read character by character.
* `Exact` — the template with each placeholder replaced, or an error where it has to be one.

## Main results

* `formatTemplate_eq` — the loop computes the pieces of the template, each in its turn.
* `scan_append` — the pieces of a text are those of its parts.
* `formatTemplate_exact_iff` — the substitution is exact unless a placeholder asks for more
  decimals than `std` prints.
-/

namespace Raydriver

/-! ### Outcomes -/

/-- What a call comes to. -/
inductive Outcome (α : Type*) where
  | ok (a : α)
  | err (message : Text)
  | panics (message : Text)
  deriving DecidableEq, Repr

namespace Outcome

variable {α β γ : Type*}

/-- What follows a computation that went well. -/
def bind (r : Outcome α) (f : α → Outcome β) : Outcome β :=
  match r with
  | .ok a => f a
  | .err message => .err message
  | .panics message => .panics message

/-- A result that went well, changed by `f`. -/
def map (f : α → β) (r : Outcome α) : Outcome β := r.bind fun a => .ok (f a)

/-- The computation returns an error. -/
def IsErr (r : Outcome α) : Prop := ∃ message, r = .err message

/-- The computation panics. -/
def Panics (r : Outcome α) : Prop := ∃ message, r = .panics message

@[simp] theorem bind_ok (a : α) (f : α → Outcome β) : (Outcome.ok a).bind f = f a := rfl

@[simp] theorem bind_err (e : Text) (f : α → Outcome β) : (Outcome.err e).bind f = .err e := rfl

@[simp] theorem bind_panics (e : Text) (f : α → Outcome β) :
    (Outcome.panics e).bind f = .panics e := rfl

@[simp] theorem map_ok (f : α → β) (a : α) : (Outcome.ok a).map f = .ok (f a) := rfl

@[simp] theorem map_err (f : α → β) (e : Text) : (Outcome.err e : Outcome α).map f = .err e := rfl

@[simp] theorem map_panics (f : α → β) (e : Text) :
    (Outcome.panics e : Outcome α).map f = .panics e := rfl

theorem bind_assoc (r : Outcome α) (f : α → Outcome β) (g : β → Outcome γ) :
    (r.bind f).bind g = r.bind fun a => (f a).bind g := by
  cases r <;> rfl

theorem map_bind (r : Outcome α) (f : α → Outcome β) (g : β → γ) :
    (r.bind f).map g = r.bind fun a => (f a).map g := bind_assoc _ _ _

theorem bind_map (r : Outcome α) (f : α → β) (g : β → Outcome γ) :
    (r.map f).bind g = r.bind fun a => g (f a) := bind_assoc _ _ _

theorem map_map (r : Outcome α) (f : α → β) (g : β → γ) :
    (r.map f).map g = r.map fun a => g (f a) := bind_assoc _ _ _

/-- The outcome without the text of its message. -/
def withoutMessage : Outcome α → Outcome α
  | .ok a => .ok a
  | .err _ => .err []
  | .panics _ => .panics []

theorem withoutMessage_bind {r : Outcome α} {f g : α → Outcome β}
    (h : ∀ a, (f a).withoutMessage = (g a).withoutMessage) :
    (r.bind f).withoutMessage = (r.bind g).withoutMessage := by
  cases r with
  | ok a => exact h a
  | err e => rfl
  | panics e => rfl

/-- The results in turn, up to the first that is none, joined. -/
def collect : List (Outcome (List α)) → Outcome (List α)
  | [] => .ok []
  | r :: rs => r.bind fun a => (collect rs).map (a ++ ·)

@[simp] theorem collect_nil : collect ([] : List (Outcome (List α))) = .ok [] := rfl

theorem collect_append (rs rs' : List (Outcome (List α))) :
    collect (rs ++ rs') = (collect rs).bind fun a => (collect rs').map (a ++ ·) := by
  induction rs with
  | nil => cases h : collect rs' <;> simp [h]
  | cons r rs ih =>
    rw [List.cons_append, collect, collect, ih, bind_assoc]
    congr 1
    funext a
    rw [map_bind, bind_map]
    congr 1
    funext b
    rw [map_map]
    congr 1
    funext c
    rw [List.append_assoc]

theorem collect_ok (l : List α) : collect (l.map fun a => Outcome.ok [a]) = .ok l := by
  induction l with
  | nil => rfl
  | cons a l ih => rw [List.map_cons, collect, ih, bind_ok, map_ok, List.singleton_append]

end Outcome

/-! ### Arguments -/

/-- What `std` does with an `f64`, for a type `F` in its place, and with the letters of a
text. -/
structure NumberFormat (F : Type) where
  /-- `{v}`. -/
  display : F → Text
  /-- `{v:.n$}`, for a precision that `std` takes. -/
  fixed : ℕ → F → Text
  /-- `v.is_finite() && v.fract() == 0.0 && v.abs() < 1e16`. -/
  isWhole : F → Bool
  /-- `v as i64`. -/
  toInt : F → ℤ
  /-- `v as f64`. -/
  ofInt : ℤ → F
  /-- `0.0`. -/
  zero : F
  /-- `v > 0.0`. -/
  isPositive : F → Bool
  /-- `{text:?}`. -/
  debug : Text → Text
  /-- `str::to_uppercase`. -/
  upper : Text → Text

/-- `usize::MAX`. -/
def usizeMax : ℕ := 2 ^ 64 - 1

/-- `u16::MAX`, the largest precision that `std` takes from an argument. -/
def maxPrecision : ℕ := 2 ^ 16 - 1

/-- `str::parse::<usize>`. -/
def parseUsize (t : Text) : Option ℕ :=
  (match t with
    | '+' :: r => parseNat r
    | t => parseNat t).filter (· ≤ usizeMax)

/-- `str::strip_suffix` of one character. -/
def stripSuffix (c : Char) (t : Text) : Option Text :=
  if t.getLast? = some c then some t.dropLast else none

/-- `str::split_once` at a character, and the two slices around what `str::find` finds. -/
def splitOnce (sep : Char) (t : Text) : Option (Text × Text) :=
  match t.dropWhile (· ≠ sep) with
  | [] => none
  | _ :: r => some (t.takeWhile (· ≠ sep), r)

/-- A template formatting argument. -/
inductive Arg (F : Type) where
  /-- Renders like a Python float. -/
  | length (v : F)
  /-- Whole numbers render as integers, fractional values as floats. -/
  | speed (v : F)
  /-- Renders like a Python int. -/
  | int (v : ℤ)
  /-- Renders as it is. -/
  | str (v : Text)

/-- `{v}` of an integer. -/
def intText (v : ℤ) : Text := (toString v).toList

/-- The precision of a `.Nf`. -/
def decimals (spec : Text) : Option ℕ :=
  ((stripPrefix ['.'] spec).bind (stripSuffix 'f')).bind parseUsize

section Render

variable {F : Type} (fmt : NumberFormat F)

/-- Format a Python-integral float the way Python's `str()` does. -/
def pythonFloatRepr (v : F) : Text := if fmt.isWhole v then fmt.fixed 1 v else fmt.display v

/-- The number a format spec applies to. -/
def Arg.number : Arg F → Option F
  | .length v | .speed v => some v
  | .int v => some (fmt.ofInt v)
  | .str _ => none

/-- The text of an argument; `std` refuses a precision past `u16::MAX`. -/
def Arg.render (arg : Arg F) : Option Text → Outcome Text
  | none =>
    .ok <| match arg with
      | .length v => pythonFloatRepr fmt v
      | .speed v => if fmt.isWhole v then intText (fmt.toInt v) else fmt.display v
      | .int v => intText v
      | .str v => v
  | some spec =>
    match arg.number fmt with
    | none => .ok []
    | some num =>
      match decimals spec with
      | some n =>
        if n ≤ maxPrecision then .ok (fmt.fixed n num)
        else .panics "Formatting argument out of range".toList
      | none => .ok (fmt.display num)

/-- The placeholder asks for more decimals of a number than `std` prints. -/
def Arg.tooFine (arg : Arg F) : Option Text → Bool
  | none => false
  | some spec =>
    (arg.number fmt).isSome && (decimals spec).any (maxPrecision < ·)

/-- Only too fine a precision keeps an argument from having a text. -/
theorem Arg.render_cases (arg : Arg F) (spec : Option Text) :
    (arg.tooFine fmt spec = false ∧ ∃ t, arg.render fmt spec = .ok t) ∨
      (arg.tooFine fmt spec = true ∧ (arg.render fmt spec).Panics) := by
  cases spec with
  | none => exact .inl ⟨rfl, _, rfl⟩
  | some spec =>
    simp only [Arg.tooFine, Arg.render]
    cases arg.number fmt with
    | none => exact .inl ⟨rfl, _, rfl⟩
    | some num =>
      cases decimals spec with
      | none => exact .inl ⟨rfl, _, rfl⟩
      | some n =>
        by_cases hn : n ≤ maxPrecision
        · refine .inl ⟨by simpa using hn, fmt.fixed n num, ?_⟩
          simp only [if_pos hn]
        · refine .inr ⟨by simpa using hn, "Formatting argument out of range".toList, ?_⟩
          simp only [if_neg hn]

/-! ### The loop -/

/-- The name of a placeholder, and what stands behind its first `:`. -/
def nameAndSpec (placeholder : Text) : Text × Option Text :=
  match splitOnce ':' placeholder with
  | some (name, spec) => (name, some spec)
  | none => (placeholder, none)

/-- The message about a placeholder without its brace. -/
def unterminatedText (template : Text) : Text :=
  "unterminated placeholder in template ".toList ++ fmt.debug template

/-- The message about a placeholder without a value. -/
def noValueText (name : Text) : Text :=
  "no value for placeholder \x7b".toList ++ name ++ "\x7d".toList

variable (template : Text) (args : List (Text × Arg F))

/-- The passes of the loop, with what is left of the template and what is written.  Each pass
takes an opening brace from the rest, so the passes allowed do not run out. -/
def formatLoop : ℕ → Text → Text → Outcome Text
  | 0, rest, out => .ok (out ++ rest)
  | n + 1, rest, out =>
    match splitOnce '{' rest with
    | none => .ok (out ++ rest)
    | some (before, after) =>
      match splitOnce '}' after with
      | none => .err (unterminatedText fmt template)
      | some (placeholder, rest) =>
        let (name, spec) := nameAndSpec placeholder
        match args.find? fun a => a.1 = name with
        | none => .err (noValueText name)
        | some (_, arg) => (arg.render fmt spec).bind fun t => formatLoop n rest (out ++ before ++ t)

/-- Format `template` with `{name}` / `{name:.Nf}` placeholders. -/
def formatTemplate : Outcome Text := formatLoop fmt template args (template.length + 1) template []

end Render

/-! ### The pieces of a template -/

/-- A character copied as it is, or a placeholder. -/
inductive Piece where
  | lit (c : Char)
  | field (name : Text) (spec : Option Text)
  deriving DecidableEq, Repr

/-- A placeholder, cut at its colon. -/
def Piece.ofPlaceholder (placeholder : Text) : Piece :=
  .field (nameAndSpec placeholder).1 (nameAndSpec placeholder).2

/-- The pieces of a text, character by character, and the placeholder it ends in.  The state is
the placeholder read so far, where one is open. -/
def scan : Option Text → Text → List Piece × Option Text
  | st, [] => ([], st)
  | none, c :: t =>
    if c = '{' then scan (some []) t else (.lit c :: (scan none t).1, (scan none t).2)
  | some p, c :: t =>
    if c = '}' then (.ofPlaceholder p :: (scan none t).1, (scan none t).2)
    else scan (some (p ++ [c])) t

/-- The pieces of a text are those of its parts. -/
theorem scan_append (v : Text) : ∀ (u : Text) (st : Option Text),
    scan st (u ++ v) = ((scan st u).1 ++ (scan (scan st u).2 v).1, (scan (scan st u).2 v).2) := by
  intro u
  induction u with
  | nil =>
    intro st
    cases st <;> rfl
  | cons c u ih =>
    intro st
    cases st with
    | none =>
      by_cases hc : c = '{'
      · simp only [List.cons_append, scan, if_pos hc, ih]
      · simp only [List.cons_append, scan, if_neg hc, ih]
    | some p =>
      by_cases hc : c = '}'
      · simp only [List.cons_append, scan, if_pos hc, ih]
      · simp only [List.cons_append, scan, if_neg hc, ih]

/-- Outside placeholders a text is copied up to its first opening brace. -/
theorem scan_lit : ∀ {t : Text}, '{' ∉ t → scan none t = (t.map .lit, none) := by
  intro t
  induction t with
  | nil => exact fun _ => rfl
  | cons c t ih =>
    intro h
    rw [List.mem_cons, not_or] at h
    rw [scan, if_neg (Ne.symm h.1), ih h.2, List.map_cons]

/-- Inside a placeholder a text is part of it up to its first closing brace. -/
theorem scan_open : ∀ {t : Text} (p : Text), '}' ∉ t → scan (some p) t = ([], some (p ++ t)) := by
  intro t
  induction t with
  | nil => exact fun p _ => by rw [scan, List.append_nil]
  | cons c t ih =>
    intro p h
    rw [List.mem_cons, not_or] at h
    rw [scan, if_neg (Ne.symm h.1), ih _ h.2, List.append_assoc, List.singleton_append]

theorem splitOnce_eq_none {sep : Char} {t : Text} (h : splitOnce sep t = none) : sep ∉ t := by
  intro hmem
  rw [splitOnce] at h
  split at h
  · rename_i hnil
    have := List.dropWhile_eq_nil_iff.mp hnil sep hmem
    simp at this
  · cases h

theorem splitOnce_eq_some {sep : Char} {t u v : Text} (h : splitOnce sep t = some (u, v)) :
    t = u ++ sep :: v ∧ sep ∉ u := by
  rw [splitOnce] at h
  split at h
  · cases h
  · rename_i c r hdrop
    obtain ⟨rfl, rfl⟩ : t.takeWhile (· ≠ sep) = u ∧ r = v := by simpa using h
    have hc : c = sep := by
      have := List.head?_dropWhile_not (· ≠ sep) t
      rw [hdrop] at this
      simpa using this
    refine ⟨?_, fun hmem => by simpa using List.mem_takeWhile_imp hmem⟩
    have hsplit := (List.takeWhile_append_dropWhile (p := (· ≠ sep)) (l := t)).symm
    rw [hdrop, hc] at hsplit
    exact hsplit

section Values

variable {F : Type} (fmt : NumberFormat F) (args : List (Text × Arg F))

/-- What stands in the place of a piece: a character itself, or the text of the first argument
of the name. -/
def Piece.value : Piece → Outcome Text
  | .lit c => .ok [c]
  | .field name spec =>
    match args.find? fun a => a.1 = name with
    | none => .err (noValueText name)
    | some (_, arg) => arg.render fmt spec

/-- What a text comes to that ends outside a placeholder, or inside one. -/
def closing (template : Text) : Option Text → Outcome Text
  | none => .ok []
  | some _ => .err (unterminatedText fmt template)

/-- The values of the pieces in turn, and then the end of the text. -/
def values (template : Text) (st : Option Text) (t : Text) : Outcome Text :=
  (Outcome.collect ((scan st t).1.map (Piece.value fmt args))).bind fun out =>
    (closing fmt template (scan st t).2).map (out ++ ·)

theorem values_append (template : Text) (st : Option Text) (u v : Text) :
    values fmt args template st (u ++ v) =
      (Outcome.collect ((scan st u).1.map (Piece.value fmt args))).bind fun out =>
        (values fmt args template (scan st u).2 v).map (out ++ ·) := by
  rw [values, scan_append, List.map_append, Outcome.collect_append, Outcome.bind_assoc]
  congr 1
  funext a
  rw [Outcome.bind_map, values, Outcome.map_bind]
  congr 1
  funext b
  rw [Outcome.map_map]
  congr 1
  funext c
  rw [List.append_assoc]

/-- A text without an opening brace is copied. -/
theorem values_lit (template : Text) {u : Text} (h : '{' ∉ u) (v : Text) :
    values fmt args template none (u ++ v) = (values fmt args template none v).map (u ++ ·) := by
  have hlit : (u.map Piece.lit).map (Piece.value fmt args) = u.map fun c => Outcome.ok [c] := by
    rw [List.map_map]
    rfl
  rw [values_append, scan_lit h, hlit, Outcome.collect_ok, Outcome.bind_ok]

/-- A placeholder is replaced. -/
theorem values_field (template : Text) {p : Text} (h : '}' ∉ p) (v : Text) :
    values fmt args template none ('{' :: p ++ '}' :: v) =
      ((Piece.ofPlaceholder p).value fmt args).bind fun t =>
        (values fmt args template none v).map (t ++ ·) := by
  have hopen : scan none ('{' :: p) = ([], some p) := by
    rw [scan, if_pos rfl, scan_open [] h, List.nil_append]
  have hclose : scan (some p) ('}' :: v) =
      (.ofPlaceholder p :: (scan none v).1, (scan none v).2) := by rw [scan, if_pos rfl]
  rw [values_append, hopen]
  simp only [values, hclose, List.map_nil, List.map_cons, Outcome.collect, Outcome.bind_ok,
    List.nil_append, Outcome.map, Outcome.bind_assoc]
  congr 1
  funext a
  congr 1
  funext b
  cases closing fmt template (scan none v).2 with
  | ok c => simp
  | err e => rfl
  | panics e => rfl

/-- A placeholder that is not terminated is an error. -/
theorem values_open (template : Text) {p : Text} (h : '}' ∉ p) :
    values fmt args template none ('{' :: p) = .err (unterminatedText fmt template) := by
  have hopen : scan none ('{' :: p) = ([], some p) := by
    rw [scan, if_pos rfl, scan_open [] h, List.nil_append]
  rw [values, hopen]
  rfl

theorem formatLoop_eq (template : Text) : ∀ (n : ℕ) (rest out : Text), rest.length < n →
    formatLoop fmt template args n rest out = (values fmt args template none rest).map (out ++ ·) := by
  intro n
  induction n with
  | zero => exact fun _ _ h => absurd h (Nat.not_lt_zero _)
  | succ n ih =>
    intro rest out hn
    rw [formatLoop]
    cases hopen : splitOnce '{' rest with
    | none =>
      have hlit := values_lit fmt args template (splitOnce_eq_none hopen) []
      rw [List.append_nil] at hlit
      rw [hlit]
      simp [values, scan, closing]
    | some q =>
      obtain ⟨before, after⟩ := q
      obtain ⟨rfl, hbefore⟩ := splitOnce_eq_some hopen
      rw [values_lit fmt args template hbefore, Outcome.map_map]
      cases hclose : splitOnce '}' after with
      | none =>
        simp only [hclose, values_open fmt args template (splitOnce_eq_none hclose),
          Outcome.map_err]
      | some q =>
        obtain ⟨placeholder, rest⟩ := q
        obtain ⟨rfl, hp⟩ := splitOnce_eq_some hclose
        rw [← List.cons_append, values_field fmt args template hp]
        -- the rest is shorter by the placeholder
        have hlen : rest.length < n := by
          simp only [List.length_append, List.length_cons] at hn
          omega
        simp only [hclose, Piece.ofPlaceholder, Piece.value]
        cases args.find? fun a => a.1 = (nameAndSpec placeholder).1 with
        | none => rfl
        | some a =>
          simp only [ih rest _ hlen, Outcome.map_bind, Outcome.map_map, List.append_assoc]

/-- **The loop reads the template in one pass.** -/
theorem formatTemplate_eq (template : Text) :
    formatTemplate fmt template args = values fmt args template none template := by
  rw [formatTemplate, formatLoop_eq fmt args template _ _ _ (Nat.lt_succ_self _)]
  cases values fmt args template none template <;> rfl

/-! ### Exact substitution -/

/-- The text in the place of a piece. -/
def Piece.text (p : Piece) : Text :=
  match p.value fmt args with
  | .ok t => t
  | _ => []

/-- A placeholder whose name no argument has. -/
def Piece.unknown : Piece → Bool
  | .lit _ => false
  | .field name _ => decide (name ∉ args.map Prod.fst)

/-- A placeholder that asks for more decimals of a number than `std` prints. -/
def Piece.tooFine : Piece → Bool
  | .lit _ => false
  | .field name spec =>
    match args.find? fun a => a.1 = name with
    | none => false
    | some (_, arg) => arg.tooFine fmt spec

/-- No placeholder is too fine, up to the first that is unknown. -/
def printable : List Piece → Bool
  | [] => true
  | p :: ps => p.unknown args || (!p.tooFine fmt args && printable ps)

/-- Some opening brace has no closing brace behind it, or some placeholder is unknown. -/
def Refused (t : Text) : Prop :=
  (scan none t).2 ≠ none ∨ ∃ p ∈ (scan none t).1, p.unknown args = true

/-- **Exact single-pass substitution.**  The pieces depend on the template alone, so no text
that an argument brings is read for placeholders. -/
structure Exact (t : Text) : Prop where
  err_iff : (formatTemplate fmt t args).IsErr ↔ Refused args t
  ok : ¬ Refused args t →
    formatTemplate fmt t args = .ok ((scan none t).1.flatMap (Piece.text fmt args))
  append : ∀ out, formatTemplate fmt t args = .ok out → ∀ t',
    (formatTemplate fmt (t ++ t') args).withoutMessage =
      ((formatTemplate fmt t' args).map (out ++ ·)).withoutMessage

theorem find?_eq_none_iff (name : Text) :
    (args.find? fun a => a.1 = name) = none ↔ name ∉ args.map Prod.fst := by
  rw [List.find?_eq_none]
  constructor
  · intro h hmem
    obtain ⟨a, ha, rfl⟩ := List.mem_map.mp hmem
    simpa using h a ha
  · intro h a ha
    have hne : a.1 ≠ name := fun heq => h (List.mem_map.mpr ⟨a, ha, heq⟩)
    simpa using hne

/-- What becomes of a piece. -/
theorem Piece.value_cases (p : Piece) :
    (p.unknown args = true ∧ (p.value fmt args).IsErr) ∨
      (p.unknown args = false ∧ p.tooFine fmt args = true ∧ (p.value fmt args).Panics) ∨
      (p.unknown args = false ∧ p.tooFine fmt args = false ∧
        p.value fmt args = .ok (p.text fmt args)) := by
  cases p with
  | lit c => exact .inr (.inr ⟨rfl, rfl, rfl⟩)
  | field name spec =>
    simp only [unknown, tooFine, text, value]
    cases hfind : args.find? fun a => a.1 = name with
    | none => exact .inl ⟨by simpa using (find?_eq_none_iff args name).mp hfind, _, rfl⟩
    | some a =>
      have hknown : name ∈ args.map Prod.fst := by
        by_contra hn
        rw [(find?_eq_none_iff args name).mpr hn] at hfind
        cases hfind
      have hname : decide (name ∉ args.map Prod.fst) = false := by simpa using hknown
      rcases a.2.render_cases fmt spec with ⟨hfine, t, ht⟩ | ⟨hfine, hp⟩
      · exact .inr (.inr ⟨hname, hfine, by simp only [ht]⟩)
      · exact .inr (.inl ⟨hname, hfine, hp⟩)

/-- The pieces in turn: a panic, an error, or their texts joined. -/
theorem collect_cases : ∀ ps : List Piece,
    (printable fmt args ps = false ∧
        (Outcome.collect (ps.map (Piece.value fmt args))).Panics) ∨
      (printable fmt args ps = true ∧ (∃ p ∈ ps, p.unknown args = true) ∧
        (Outcome.collect (ps.map (Piece.value fmt args))).IsErr) ∨
      (printable fmt args ps = true ∧ (∀ p ∈ ps, p.unknown args = false) ∧
        Outcome.collect (ps.map (Piece.value fmt args)) =
          .ok (ps.flatMap (Piece.text fmt args))) := by
  intro ps
  induction ps with
  | nil => exact .inr (.inr ⟨rfl, by simp, rfl⟩)
  | cons p ps ih =>
    rw [List.map_cons, Outcome.collect, printable]
    rcases p.value_cases fmt args with ⟨hu, e, he⟩ | ⟨hu, hf, e, he⟩ | ⟨hu, hf, hv⟩
    · refine .inr (.inl ⟨by simp [hu], ⟨p, List.mem_cons_self, hu⟩, e, ?_⟩)
      rw [he, Outcome.bind_err]
    · refine .inl ⟨by simp [hu, hf], e, ?_⟩
      rw [he, Outcome.bind_panics]
    · rw [hv, Outcome.bind_ok]
      rcases ih with ⟨hp, e, he⟩ | ⟨hp, ⟨q, hq, hqu⟩, e, he⟩ | ⟨hp, hall, heq⟩
      · exact .inl ⟨by simp [hu, hp], e, by rw [he, Outcome.map_panics]⟩
      · exact .inr (.inl ⟨by simp [hf, hp], ⟨q, List.mem_cons_of_mem _ hq, hqu⟩, e,
          by rw [he, Outcome.map_err]⟩)
      · refine .inr (.inr ⟨by simp [hf, hp], ?_, by rw [heq, Outcome.map_ok, List.flatMap_cons]⟩)
        intro q hq
        rcases List.mem_cons.mp hq with rfl | hq
        · exact hu
        · exact hall q hq

/-- The template shows only in the text of an error. -/
theorem withoutMessage_values (template template' : Text) (st : Option Text) (t : Text) :
    (values fmt args template st t).withoutMessage =
      (values fmt args template' st t).withoutMessage := by
  refine Outcome.withoutMessage_bind fun a => ?_
  cases (scan st t).2 with
  | none => rfl
  | some p => rfl

/-- A template that is formatted ends outside its placeholders, and its pieces are written. -/
theorem values_ok {template t out : Text} (h : values fmt args template none t = .ok out) :
    (scan none t).2 = none ∧
      Outcome.collect ((scan none t).1.map (Piece.value fmt args)) = .ok out := by
  rw [values] at h
  cases hc : Outcome.collect ((scan none t).1.map (Piece.value fmt args)) with
  | err e => rw [hc] at h; cases h
  | panics e => rw [hc] at h; cases h
  | ok a =>
    rw [hc, Outcome.bind_ok] at h
    cases hst : (scan none t).2 with
    | some p => rw [hst] at h; cases h
    | none =>
      rw [hst, closing, Outcome.map_ok, List.append_nil] at h
      exact ⟨rfl, h⟩

/-- A template behind one that is formatted. -/
theorem formatTemplate_append {t out : Text} (h : formatTemplate fmt t args = .ok out)
    (t' : Text) :
    formatTemplate fmt (t ++ t') args = (values fmt args (t ++ t') none t').map (out ++ ·) := by
  rw [formatTemplate_eq] at h ⊢
  obtain ⟨hst, hc⟩ := values_ok fmt args h
  rw [values_append, hst, hc, Outcome.bind_ok]

/-- What the loop comes to. -/
theorem formatTemplate_cases (t : Text) :
    (printable fmt args (scan none t).1 = false ∧ (formatTemplate fmt t args).Panics) ∨
      (printable fmt args (scan none t).1 = true ∧ Refused args t ∧
        (formatTemplate fmt t args).IsErr) ∨
      (printable fmt args (scan none t).1 = true ∧ ¬ Refused args t ∧
        formatTemplate fmt t args = .ok ((scan none t).1.flatMap (Piece.text fmt args))) := by
  rw [formatTemplate_eq, values]
  rcases collect_cases fmt args (scan none t).1 with ⟨hp, e, he⟩ | ⟨hp, hbad, e, he⟩ | ⟨hp, hall, heq⟩
  · exact .inl ⟨hp, e, by rw [he, Outcome.bind_panics]⟩
  · exact .inr (.inl ⟨hp, .inr hbad, e, by rw [he, Outcome.bind_err]⟩)
  · rw [heq, Outcome.bind_ok]
    cases hst : (scan none t).2 with
    | some q =>
      exact .inr (.inl ⟨hp, .inl (by simp [hst]), unterminatedText fmt t, rfl⟩)
    | none =>
      refine .inr (.inr ⟨hp, ?_, by rw [closing, Outcome.map_ok, List.append_nil]⟩)
      rintro (hopen | ⟨p, hmem, hu⟩)
      · exact hopen hst
      · simp [hall p hmem] at hu

/-- Where every name is known, only too fine a placeholder is in the way. -/
theorem printable_iff : ∀ {ps : List Piece}, (∀ p ∈ ps, p.unknown args = false) →
    (printable fmt args ps = true ↔ ∀ p ∈ ps, p.tooFine fmt args = false) := by
  intro ps
  induction ps with
  | nil => simp [printable]
  | cons p ps ih =>
    intro h
    rw [List.forall_mem_cons] at h
    rw [printable, h.1, Bool.false_or, Bool.and_eq_true, ih h.2, List.forall_mem_cons,
      Bool.not_eq_true']

/-- A template that is closed and whose names are known is formatted or panics. -/
theorem formatTemplate_known {t : Text} (hst : (scan none t).2 = none)
    (h : ∀ p ∈ (scan none t).1, p.unknown args = false) :
    (printable fmt args (scan none t).1 = true ∧
        formatTemplate fmt t args = .ok ((scan none t).1.flatMap (Piece.text fmt args))) ∨
      (printable fmt args (scan none t).1 = false ∧ (formatTemplate fmt t args).Panics) := by
  rcases formatTemplate_cases fmt args t with hp | ⟨-, hr, -⟩ | ⟨hp, -, heq⟩
  · exact .inr hp
  · exfalso
    rcases hr with hopen | ⟨p, hmem, hu⟩
    · exact hopen hst
    · rw [h p hmem] at hu
      cases hu
  · exact .inl ⟨hp, heq⟩

/-- A panic is neither the error nor the text that is called for. -/
theorem Exact.printable {t : Text} (h : Exact fmt args t) :
    printable fmt args (scan none t).1 = true := by
  rcases formatTemplate_cases fmt args t with ⟨hp, e, he⟩ | ⟨hp, -⟩ | ⟨hp, -⟩
  · exfalso
    by_cases hr : Refused args t
    · obtain ⟨e', he'⟩ := h.err_iff.mpr hr
      rw [he] at he'
      cases he'
    · rw [h.ok hr] at he
      cases he
  · exact hp
  · exact hp

/-- **When the substitution is exact.**  For every template and all arguments, the loop is the
exact single-pass substitution if and only if no placeholder asks for more decimals of a number
than `std` prints before the template is refused. -/
theorem formatTemplate_exact_iff (t : Text) :
    Exact fmt args t ↔ printable fmt args (scan none t).1 = true := by
  constructor
  · exact Exact.printable fmt args
  · intro hp
    have happend (out : Text) (hout : formatTemplate fmt t args = .ok out) (t' : Text) :
        (formatTemplate fmt (t ++ t') args).withoutMessage =
          ((formatTemplate fmt t' args).map (out ++ ·)).withoutMessage := by
      rw [formatTemplate_append fmt args hout, formatTemplate_eq fmt args t']
      have hv := withoutMessage_values fmt args (t ++ t') t' none t'
      cases h₁ : values fmt args (t ++ t') none t' <;>
        cases h₂ : values fmt args t' none t' <;> rw [h₁, h₂] at hv <;> cases hv <;> rfl
    rcases formatTemplate_cases fmt args t with ⟨hp', -⟩ | ⟨-, hr, he⟩ | ⟨-, hr, heq⟩
    · rw [hp] at hp'
      cases hp'
    · refine ⟨⟨fun _ => hr, fun _ => he⟩, fun hn => absurd hr hn, happend⟩
    · refine ⟨⟨fun ⟨e, he⟩ => ?_, fun h => absurd h hr⟩, fun _ => heq, happend⟩
      rw [heq] at he
      cases he

end Values

/-! ### Exact decimals -/

/-- The last `n` digits of a number. -/
def lastDigits (n k : ℕ) : Text :=
  (List.range n).reverse.map fun i => Char.ofNat (48 + k / 10 ^ i % 10)

/-- To the nearest integer, and to the even one of two. -/
def roundHalfEven (v : ℚ) : ℤ :=
  let half := v - v.floor
  if half < 1 / 2 ∨ (half = 1 / 2 ∧ v.floor % 2 = 0) then v.floor else v.floor + 1

/-- `{v:.n}`. -/
def fixedDecimal (n : ℕ) (v : ℚ) : Text :=
  let k := (roundHalfEven (|v| * 10 ^ n)).toNat
  (if v < 0 then ['-'] else []) ++ intText (k / 10 ^ n) ++
    if n = 0 then [] else '.' :: lastDigits n k

/-- The number formatting on values with at most sixteen decimals. -/
def decimalFormat : NumberFormat ℚ where
  display v := fixedDecimal (((List.range 17).find? fun n => (v * 10 ^ n).den = 1).getD 16) v
  fixed := fixedDecimal
  isWhole v := v.den = 1 ∧ |v| < 10 ^ 16
  toInt v := v.floor
  ofInt v := v
  zero := 0
  isPositive v := 0 < v
  debug t := '"' :: t ++ ['"']
  upper t := t.map Char.toUpper

example : formatTemplate decimalFormat "G1 X{x} Y{y:.2f}\x7d".toList
    [("x".toList, .length (5 / 2)), ("y".toList, .length 3)] =
      .ok "G1 X2.5 Y3.00\x7d".toList := by decide +kernel

/-- Seventy thousand decimals are no error and no text: `std` panics. -/
theorem formatTemplate_panics :
    ¬ Exact decimalFormat [("x".toList, .length 1)] "X{x:.70000f}".toList := by
  intro h
  have hp := h.printable
  revert hp
  decide +kernel

end Raydriver
