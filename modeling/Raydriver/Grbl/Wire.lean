import Raydriver.Core.Splitter
import Raydriver.Grbl.Flow

/-!
# The device's byte stream

A device stream is informational text with complete acknowledgements inserted at
arbitrary places.  It is described by a list of tokens: single bytes of the
informational text, `ok` acknowledgements (possibly corrupted by NULs) and
`error:` acknowledgements.  A token list is *clean* when the text left after
cutting the acknowledgements out holds no further acknowledgement.

## Main definitions

* `Token`, `render`, `info` — tokens, their bytes, and the informational text.
* `acksOf` — the acknowledgements in wire order.
* `Quiet`, `Clean` — lines and streams without stray acknowledgements.
* `Tidy` — streams from which acknowledgements can be cut without making new ones.
* `carry`, `lineEvents` — the unfinished line and the lines already finished.

## Main results

* `carry_append`, `lineEvents_append` — a stream continues where its start left off.
* `Clean.left`, `clean_append` — the parts of a clean stream are clean.
* `Clean.tidy`, `tidy_append` — a clean stream is tidy, and so are the parts of a tidy one.
-/

namespace Raydriver

open FlowInner

/-! ### Tokens -/

/-- The bytes of an `ok`, with `nuls` NULs inside and `crs` CRs before the LF. -/
def okAck (nuls crs : ℕ) : Bytes :=
  'o'.toUInt8 :: (List.replicate nuls 0 ++ 'k'.toUInt8 :: (List.replicate crs CR ++ [LF]))

/-- The bytes of an error acknowledgement. -/
def errAck (text : Bytes) : Bytes := errorMarker ++ text ++ [LF]

/-- A part of the stream of the device: an acknowledgement, or a byte of anything else. -/
inductive Token where
  /-- A byte of the informational text. -/
  | byte (b : UInt8)
  /-- An `ok`, plain when `nuls` is zero. -/
  | ok (nuls crs : ℕ)
  /-- An `error:` with its text. -/
  | err (text : Bytes)
  deriving DecidableEq, Repr

/-- The bytes of the token. -/
def Token.render : Token → Bytes
  | .byte b => [b]
  | .ok nuls crs => okAck nuls crs
  | .err text => errAck text

/-- The bytes of a token list. -/
def render : List Token → Bytes
  | [] => []
  | t :: ts => t.render ++ render ts

/-- The informational text: the stream with its acknowledgements cut out. -/
def info : List Token → Bytes
  | [] => []
  | .byte b :: ts => b :: info ts
  | .ok _ _ :: ts => info ts
  | .err _ :: ts => info ts

/-- The text reported for an error acknowledgement. -/
def errText (text : Bytes) : Text := trim ((fromUtf8 (errAck text)).getD [])

/-- The acknowledgements in the order in which they stand on the wire. -/
def acksOf : List Token → List (GrblResponseType × Text)
  | [] => []
  | .byte _ :: ts => acksOf ts
  | .ok _ _ :: ts => (.ok, "ok".toList) :: acksOf ts
  | .err text :: ts => (.error, errText text) :: acksOf ts

@[simp] theorem render_nil : render [] = [] := rfl

@[simp] theorem render_cons (t : Token) (ts : List Token) :
    render (t :: ts) = t.render ++ render ts := rfl

@[simp] theorem render_append (ts us : List Token) :
    render (ts ++ us) = render ts ++ render us := by
  induction ts with
  | nil => rfl
  | cons t ts ih => simp [ih]

@[simp] theorem acksOf_append (ts us : List Token) :
    acksOf (ts ++ us) = acksOf ts ++ acksOf us := by
  induction ts with
  | nil => rfl
  | cons t ts ih => cases t <;> simp [acksOf, ih]

@[simp] theorem info_append (ts us : List Token) : info (ts ++ us) = info ts ++ info us := by
  induction ts with
  | nil => rfl
  | cons t ts ih => cases t <;> simp [info, ih]

theorem render_bytes (l : Bytes) : render (l.map .byte) = l := by
  induction l with
  | nil => rfl
  | cons b l ih => simp [Token.render, ih]

theorem acksOf_bytes (l : Bytes) : acksOf (l.map .byte) = [] := by
  induction l with
  | nil => rfl
  | cons b l ih => exact ih

theorem info_bytes (l : Bytes) : info (l.map .byte) = l := by
  induction l with
  | nil => rfl
  | cons b l ih => simp [info, ih]

/-! ### Clean streams -/

/-- The line, once its LF is there, ends in an `ok` acknowledgement. -/
def OkEnd (x : Bytes) : Prop := ∃ y nuls crs, x ++ [LF] = y ++ okAck nuls crs

/-- A line that holds no acknowledgement. -/
structure Quiet (x : Bytes) : Prop where
  not_okEnd : ¬ OkEnd x
  no_marker : ¬ errorMarker <:+: x
  not_ack : ∀ t ∈ lineTexts x, t ≠ "ok".toList ∧ startsWith "error:".toList t = false

/-- The text of an `error:` acknowledgement. -/
structure ErrText (text : Bytes) : Prop where
  no_LF : LF ∉ text
  not_okEnd : ¬ OkEnd text
  isSome : (fromUtf8 (errAck text)).isSome = true

/-- The stream, entered with the unfinished line `x`, holds no acknowledgements but
its tokens. -/
def Clean : Bytes → List Token → Prop
  | x, [] => ¬ errorMarker <:+: x
  | x, .byte b :: ts => if b = LF then Quiet x ∧ Clean [] ts else Clean (x ++ [b]) ts
  | x, .ok _ _ :: ts => Clean x ts
  | x, .err text :: ts => ErrText text ∧ Clean x ts

/-- The unfinished line after the stream, entered with `x`. -/
def carry (x : Bytes) (ts : List Token) : Bytes := unfinished x (info ts)

/-- The lines finished by the stream, entered with `x`. -/
def lineEvents (x : Bytes) (ts : List Token) : List Text := finished x (info ts)

theorem carry_byte (x : Bytes) (b : UInt8) (ts : List Token) :
    carry x (.byte b :: ts) = if b = LF then carry [] ts else carry (x ++ [b]) ts := rfl

theorem carry_append (us ts : List Token) (x : Bytes) :
    carry x (ts ++ us) = carry (carry x ts) us := by
  rw [carry, info_append, unfinished_append]
  rfl

theorem lineEvents_append (us ts : List Token) (x : Bytes) :
    lineEvents x (ts ++ us) = lineEvents x ts ++ lineEvents (carry x ts) us := by
  rw [lineEvents, info_append, finished_append]
  rfl

theorem clean_append (us : List Token) : ∀ {ts : List Token} {x : Bytes},
    Clean x (ts ++ us) → Clean (carry x ts) us := by
  intro ts
  induction ts with
  | nil => intro x h; exact h
  | cons t ts ih =>
    intro x h
    cases t with
    | byte b =>
      simp only [List.cons_append, Clean, carry_byte] at h ⊢
      split_ifs at h ⊢
      · exact ih h.2
      · exact ih h
    | ok nuls crs => exact ih h
    | err text => exact ih h.2

/-- The unfinished line of a clean stream holds no error marker. -/
theorem Clean.no_marker : ∀ {ts : List Token} {x : Bytes}, Clean x ts → ¬ errorMarker <:+: x := by
  intro ts
  induction ts with
  | nil => intro x h; exact h
  | cons t ts ih =>
    intro x h
    cases t with
    | byte b =>
      simp only [Clean] at h
      split_ifs at h
      · exact h.1.no_marker
      · exact fun hx => ih h (hx.trans (List.prefix_append x [b]).isInfix)
    | ok nuls crs => exact ih h
    | err text => exact ih h.2

/-- A clean stream stays clean up to any of its tokens. -/
theorem Clean.left {us : List Token} : ∀ {ts : List Token} {x : Bytes},
    Clean x (ts ++ us) → Clean x ts := by
  intro ts
  induction ts with
  | nil => intro x h; exact h.no_marker
  | cons t ts ih =>
    intro x h
    cases t with
    | byte b =>
      simp only [List.cons_append, Clean] at h ⊢
      split_ifs at h ⊢
      · exact ⟨h.1, ih h.2⟩
      · exact ih h
    | ok nuls crs => exact ih h
    | err text => exact ⟨h.1, ih h.2⟩

/-! ### Tidy streams -/

/-- The stream, entered with the unfinished line `x`, is its tokens also when some of the
acknowledgements are cut out.  Its lines may be acknowledgements themselves, and its errors
need not be valid UTF-8. -/
def Tidy : Bytes → List Token → Prop
  | x, [] => ¬ errorMarker <:+: x
  | x, .byte b :: ts =>
    if b = LF then (¬ OkEnd x ∧ ¬ errorMarker <:+: x) ∧ Tidy [] ts else Tidy (x ++ [b]) ts
  | x, .ok _ _ :: ts => Tidy x ts
  | x, .err text :: ts => (LF ∉ text ∧ ¬ OkEnd text) ∧ Tidy x ts

theorem Clean.tidy : ∀ {ts : List Token} {x : Bytes}, Clean x ts → Tidy x ts := by
  intro ts
  induction ts with
  | nil => intro x h; exact h
  | cons t ts ih =>
    intro x h
    cases t with
    | byte b =>
      simp only [Clean, Tidy] at h ⊢
      split_ifs at h ⊢
      · exact ⟨⟨h.1.not_okEnd, h.1.no_marker⟩, ih h.2⟩
      · exact ih h
    | ok nuls crs => exact ih h
    | err text => exact ⟨⟨h.1.no_LF, h.1.not_okEnd⟩, ih h.2⟩

theorem tidy_append (us : List Token) : ∀ {ts : List Token} {x : Bytes},
    Tidy x (ts ++ us) → Tidy (carry x ts) us := by
  intro ts
  induction ts with
  | nil => intro x h; exact h
  | cons t ts ih =>
    intro x h
    cases t with
    | byte b =>
      simp only [List.cons_append, Tidy, carry_byte] at h ⊢
      split_ifs at h ⊢
      · exact ih h.2
      · exact ih h
    | ok nuls crs => exact ih h
    | err text => exact ih h.2

/-- The unfinished line of a tidy stream holds no error marker. -/
theorem Tidy.no_marker : ∀ {ts : List Token} {x : Bytes}, Tidy x ts → ¬ errorMarker <:+: x := by
  intro ts
  induction ts with
  | nil => intro x h; exact h
  | cons t ts ih =>
    intro x h
    cases t with
    | byte b =>
      simp only [Tidy] at h
      split_ifs at h
      · exact h.1.2
      · exact fun hx => ih h (hx.trans (List.prefix_append x [b]).isInfix)
    | ok nuls crs => exact ih h
    | err text => exact ih h.2

/-- A tidy stream stays tidy up to any of its tokens. -/
theorem Tidy.left {us : List Token} : ∀ {ts : List Token} {x : Bytes},
    Tidy x (ts ++ us) → Tidy x ts := by
  intro ts
  induction ts with
  | nil => intro x h; exact h.no_marker
  | cons t ts ih =>
    intro x h
    cases t with
    | byte b =>
      simp only [List.cons_append, Tidy] at h ⊢
      split_ifs at h ⊢
      · exact ⟨h.1, ih h.2⟩
      · exact ih h
    | ok nuls crs => exact ih h
    | err text => exact ⟨h.1, ih h.2⟩

/-- Cutting acknowledgements out of a tidy stream leaves it tidy. -/
theorem Tidy.filter {keep : Token → Bool} (hk : ∀ b, keep (.byte b) = true) :
    ∀ {ts : List Token} {x : Bytes}, Tidy x ts → Tidy x (ts.filter keep) := by
  intro ts
  induction ts with
  | nil => intro x h; exact h
  | cons t ts ih =>
    intro x h
    cases t with
    | byte b =>
      rw [List.filter_cons_of_pos (hk b)]
      simp only [Tidy] at h ⊢
      split_ifs at h ⊢
      · exact ⟨h.1, ih h.2⟩
      · exact ih h
    | ok nuls crs =>
      rw [List.filter_cons]
      split_ifs
      · exact ih (show Tidy x ts from h)
      · exact ih (show Tidy x ts from h)
    | err text =>
      rw [List.filter_cons]
      split_ifs
      · exact ⟨h.1, ih h.2⟩
      · exact ih h.2

theorem LF_notMem_carry (ts : List Token) (x : Bytes) (hx : LF ∉ x) : LF ∉ carry x ts :=
  LF_notMem_unfinished (info ts) x hx

end Raydriver
