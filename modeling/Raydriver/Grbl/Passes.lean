import Raydriver.Grbl.Wire
import Mathlib.Tactic.IntervalCases

/-!
# The passes of the GRBL parser

One call of `parse_incoming` makes four passes over the buffer: plain `ok`s,
`ok`s corrupted by NULs, `error:` lines, and the lines that are left.  Each pass
is specified on a buffer `y ++ render ts ++ p`, where `y` is what is left of the
line already scanned, `ts` a tidy token list (a clean one for the last pass) and `p` the
start of the next token.

The two `ok` passes are one argument: a matcher that finds exactly the `ok`s of
a given kind (`OkMatcher`).

## Main definitions

* `acknowledgeAll`, `acked` — the accounting for a list of acknowledgements.
* `OkMatcher` — a matcher for the `ok`s whose NUL count satisfies a predicate.
* `passOrder` — the order in which one call accounts for the acknowledgements.

## Main results

* `extractOks_pass`, `extractErrors_pass`, `splitLines_pass` — the passes.
* `extractAcks_tidy` — the first three passes over a tidy buffer.
* `parseExtracted_tokens` — **the specification of `parse_incoming`**.
-/

namespace Raydriver

open FlowInner

/-! ### Accounting for several acknowledgements -/

namespace FlowInner

/-- Account for a list of acknowledgements, in order. -/
def acknowledgeAll : List (GrblResponseType × Text) → FlowInner → FlowInner × List Extracted
  | [], f => (f, [])
  | a :: as, f =>
    let (g, e) := f.acknowledge a.1 a.2
    let (h, es) := acknowledgeAll as g
    (h, e :: es)

/-- The outcome of a pass: the acknowledgements `as` accounted for, `b` left in the buffer. -/
def acked (as : List (GrblResponseType × Text)) (b : Bytes) (f : FlowInner) :
    FlowInner × List Extracted :=
  ((f.acknowledgeAll as).1.withBuffer b, (f.acknowledgeAll as).2)

theorem acknowledge_withBuffer (r : GrblResponseType) (t : Text) (b : Bytes) (f : FlowInner) :
    (f.withBuffer b).acknowledge r t
      = ((f.acknowledge r t).1.withBuffer b, (f.acknowledge r t).2) := by
  obtain ⟨_, _, _, pending, _, _⟩ := f
  cases pending <;> rfl

theorem acknowledgeAll_withBuffer (as : List (GrblResponseType × Text)) (b : Bytes) :
    ∀ f : FlowInner, (f.withBuffer b).acknowledgeAll as
      = ((f.acknowledgeAll as).1.withBuffer b, (f.acknowledgeAll as).2) := by
  induction as with
  | nil => intro f; rfl
  | cons a as ih =>
    intro f
    simp only [acknowledgeAll, acknowledge_withBuffer, ih]

@[simp] theorem acked_withBuffer (as : List (GrblResponseType × Text)) (b c : Bytes)
    (f : FlowInner) : acked as b (f.withBuffer c) = acked as b f := by
  simp only [acked, acknowledgeAll_withBuffer, withBuffer_withBuffer]

@[simp] theorem acked_nil (b : Bytes) (f : FlowInner) : acked [] b f = (f.withBuffer b, []) := rfl

theorem acked_cons (a : GrblResponseType × Text) (as : List (GrblResponseType × Text))
    (b : Bytes) (f : FlowInner) :
    acked (a :: as) b f = ((acked as b (f.acknowledge a.1 a.2).1).1,
      (f.acknowledge a.1 a.2).2 :: (acked as b (f.acknowledge a.1 a.2).1).2) := rfl

theorem acked_append (as as' : List (GrblResponseType × Text)) (b b' : Bytes) :
    ∀ f : FlowInner, acked (as ++ as') b' f
      = ((acked as' b' (acked as b f).1).1, (acked as b f).2 ++ (acked as' b' (acked as b f).1).2) := by
  induction as with
  | nil => intro f; simp
  | cons a as ih =>
    intro f
    rw [List.cons_append, acked_cons, acked_cons, ih]
    rfl

end FlowInner

/-! ### The bytes of an `ok` -/

/-- An `ok` without its LF. -/
def okHead (nuls crs : ℕ) : Bytes :=
  'o'.toUInt8 :: (List.replicate nuls 0 ++ 'k'.toUInt8 :: List.replicate crs CR)

theorem okAck_eq (nuls crs : ℕ) : okAck nuls crs = okHead nuls crs ++ [LF] := by
  simp [okAck, okHead]

theorem LF_notMem_okHead (nuls crs : ℕ) : LF ∉ okHead nuls crs := by
  simp only [okHead, List.mem_cons, List.mem_append, List.mem_replicate, not_or, not_and]
  exact ⟨by decide, fun _ => by decide, by decide, fun _ => by decide⟩

/-- An `o` stands only at the head of an `ok`. -/
theorem o_notMem_okAck_tail (nuls crs : ℕ) : 'o'.toUInt8 ∉ (okAck nuls crs).tail := by
  simp only [okAck, List.tail_cons, List.mem_append, List.mem_cons, List.mem_replicate, not_or,
    not_and]
  exact ⟨fun _ => by decide, by decide, fun _ => by decide, by decide, List.not_mem_nil⟩

/-- The bytes before the first LF are determined. -/
theorem eq_of_append_LF {x y : Bytes} (hx : LF ∉ x) (hy : LF ∉ y) {r s : Bytes}
    (h : x ++ LF :: r = y ++ LF :: s) : x = y := by
  have htake (z t : Bytes) (hz : LF ∉ z) : (z ++ LF :: t).takeWhile (· != LF) = z := by
    rw [List.takeWhile_append_of_pos fun b hb => bne_iff_ne.mpr (ne_of_mem_of_not_mem hb hz)]
    simp
  rw [← htake x r hx, h, htake y s hy]

/-- An `ok` that ends in an `ok` is that `ok`. -/
theorem eq_nil_of_okAck_suffix {y : Bytes} {n c n' c' : ℕ}
    (h : y ++ okAck n' c' = okAck n c) : y = [] := by
  cases y with
  | nil => rfl
  | cons a y =>
    have htail : y ++ okAck n' c' = (okAck n c).tail := by rw [← h]; rfl
    refine absurd ?_ (o_notMem_okAck_tail n c)
    rw [← htail]
    exact List.mem_append_right _ List.mem_cons_self

theorem takeWhile_run {a c : UInt8} (h : c ≠ a) (k : ℕ) (r : Bytes) :
    (List.replicate k a ++ c :: r).takeWhile (· == a) = List.replicate k a := by
  induction k with
  | zero => simp [h]
  | succ k ih => simpa [List.replicate_succ] using ih

theorem run_append_drop (a : UInt8) (r : Bytes) :
    List.replicate (r.takeWhile (· == a)).length a ++ r.drop (r.takeWhile (· == a)).length = r := by
  induction r with
  | nil => rfl
  | cons b r ih =>
    by_cases hb : b = a
    · subst hb
      simpa [List.replicate_succ] using ih
    · simp [hb]

theorem okAck_nuls_inj {n c n' c' : ℕ} (h : okAck n c = okAck n' c') : n = n' := by
  have ht : ((okAck n c).tail.takeWhile (· == 0)).length = n := by
    rw [okAck, List.tail_cons, takeWhile_run (by decide), List.length_replicate]
  rw [← ht, h, okAck, List.tail_cons, takeWhile_run (by decide), List.length_replicate]

/-- The line before an LF that starts at an `ok` head. -/
theorem run_split {a c : UInt8} {r : Bytes} (h : r[(r.takeWhile (· == a)).length]? = some c) :
    r = List.replicate (r.takeWhile (· == a)).length a
      ++ c :: r.drop ((r.takeWhile (· == a)).length + 1) := by
  obtain ⟨hlt, hc⟩ := List.getElem?_eq_some_iff.mp h
  rw [← hc, ← List.drop_eq_getElem_cons hlt, run_append_drop]

/-! ### Matchers for `ok`s -/

/-- The matcher finds exactly the `ok`s whose number of NULs satisfies `P`. -/
structure OkMatcher (m : Bytes → Option ℕ) (P : ℕ → Bool) : Prop where
  sound : ∀ {l : Bytes} {n : ℕ}, m l = some n →
    ∃ nuls crs r, P nuls = true ∧ l = okAck nuls crs ++ r
  complete : ∀ (nuls crs : ℕ) (r : Bytes), P nuls = true →
    m (okAck nuls crs ++ r) = some (okAck nuls crs).length

theorem okMatcher_okAckLen : OkMatcher okAckLen (fun n => n == 0) where
  sound := by
    intro l n h
    match l, h with
    | a :: b :: r, h =>
      simp only [okAckLen] at h
      split_ifs at h with hc
      obtain ⟨rfl, rfl, hLF⟩ := hc
      refine ⟨0, (r.takeWhile (· == CR)).length,
        r.drop ((r.takeWhile (· == CR)).length + 1), rfl, ?_⟩
      conv_lhs => rw [run_split hLF]
      simp [okAck]
  complete := by
    intro nuls crs r hP
    obtain rfl : nuls = 0 := by simpa using hP
    simp [okAck, okAckLen, takeWhile_run (show LF ≠ CR by decide)]
    omega

theorem okMatcher_nullOkLen : OkMatcher nullOkLen (fun n => n != 0) where
  sound := by
    intro l n h
    match l, h with
    | a :: r, h =>
      simp only [nullOkLen] at h
      split_ifs at h with hc
      obtain ⟨rfl, hk, hpos, hLF⟩ := hc
      have hr := run_split hk
      have hr' := run_split hLF
      generalize (r.takeWhile (· == 0)).length = nuls at *
      generalize r.drop (nuls + 1) = r' at *
      refine ⟨nuls, (r'.takeWhile (· == CR)).length,
        r'.drop ((r'.takeWhile (· == CR)).length + 1), bne_iff_ne.mpr (Nat.ne_of_gt hpos), ?_⟩
      conv_lhs => rw [hr, hr']
      simp [okAck]
  complete := by
    intro nuls crs r hP
    have hpos : 0 < nuls := by simpa [Nat.pos_iff_ne_zero] using hP
    have hdrop (u : Bytes) :
        (List.replicate nuls 0 ++ 'k'.toUInt8 :: u).drop (nuls + 1) = u := by
      rw [List.drop_append, List.length_replicate]
      simp
    simp only [okAck, List.cons_append, List.append_assoc, nullOkLen,
      takeWhile_run (show 'k'.toUInt8 ≠ 0 by decide), List.length_replicate, hdrop,
      takeWhile_run (show LF ≠ CR by decide)]
    simp [hpos]
    omega

namespace OkMatcher

variable {m : Bytes → Option ℕ} {P : ℕ → Bool}

/-- A match ends at the first LF. -/
theorem line (hm : OkMatcher m P) {z b : Bytes} {n : ℕ} (hz : LF ∉ z)
    (h : m (z ++ LF :: b) = some n) :
    ∃ nuls crs, P nuls = true ∧ z ++ [LF] = okAck nuls crs := by
  obtain ⟨nuls, crs, r, hP, he⟩ := hm.sound h
  rw [okAck_eq, List.append_assoc, List.singleton_append] at he
  obtain rfl := eq_of_append_LF hz (LF_notMem_okHead nuls crs) he
  exact ⟨nuls, crs, hP, (okAck_eq nuls crs).symm⟩

/-- No match starts in a line that does not end in an `ok` of the kind. -/
theorem noMatchIn (hm : OkMatcher m P) {z : Bytes} (hz : LF ∉ z)
    (h : ∀ nuls crs, P nuls = true → ¬ okAck nuls crs <:+ z ++ [LF]) (b : Bytes) :
    Search.NoMatchIn m (z ++ [LF]) b := by
  intro s hs hne
  rcases List.eq_nil_or_concat s with rfl | ⟨s, c, rfl⟩
  · exact absurd rfl hne
  · rw [List.concat_eq_append] at hs ⊢
    obtain ⟨w, hw⟩ := hs
    rw [← List.append_assoc] at hw
    obtain ⟨rfl, hc⟩ := List.append_inj' hw rfl
    obtain rfl : c = LF := List.head_eq_of_cons_eq hc
    by_contra hsome
    obtain ⟨n, hn⟩ := Option.ne_none_iff_exists'.mp hsome
    rw [List.append_assoc, List.singleton_append] at hn
    have hs : LF ∉ s := fun hmem => hz (List.mem_append_right w hmem)
    obtain ⟨nuls, crs, hP, he⟩ := hm.line hs hn
    refine h nuls crs hP ⟨w, ?_⟩
    rw [← he, List.append_assoc]

/-- No match starts in what stands before an `ok`. -/
theorem noMatchIn_okAck (hm : OkMatcher m P) {y : Bytes} (hy : LF ∉ y) (nuls crs : ℕ) (b : Bytes) :
    Search.NoMatchIn m y (okAck nuls crs ++ b) := by
  intro s hs hne
  by_contra hsome
  obtain ⟨n, hn⟩ := Option.ne_none_iff_exists'.mp hsome
  rw [okAck_eq, List.append_assoc, List.singleton_append, ← List.append_assoc] at hn
  have hLF : LF ∉ s ++ okHead nuls crs := by
    rw [List.mem_append]
    rintro (hmem | hmem)
    · exact hy (hs.subset hmem)
    · exact LF_notMem_okHead nuls crs hmem
  obtain ⟨nuls', crs', -, he⟩ := hm.line hLF hn
  rw [List.append_assoc, ← okAck_eq] at he
  exact hne (eq_nil_of_okAck_suffix he)

/-- Without an LF nothing is found. -/
theorem leftmost_eq_none (hm : OkMatcher m P) {y : Bytes} (hy : LF ∉ y) :
    Search.leftmost m y = none := by
  refine Search.leftmost_eq_none fun s hs _ => ?_
  by_contra hsome
  obtain ⟨n, hn⟩ := Option.ne_none_iff_exists'.mp hsome
  obtain ⟨nuls, crs, r, -, he⟩ := hm.sound hn
  refine hy (hs.subset ?_)
  rw [List.append_nil] at he
  rw [he, okAck_eq]
  simp

end OkMatcher

theorem drain_append (z b : Bytes) (start stop : ℕ) :
    drain (start + z.length) (stop + z.length) (z ++ b) = z ++ drain start stop b := by
  simp [drain, List.take_append, List.drop_append, List.take_of_length_le,
    List.drop_of_length_le]

theorem drain_between (y t b : Bytes) :
    drain y.length (y.length + t.length) (y ++ (t ++ b)) = y ++ b := by
  simp [drain, List.drop_append]

/-! ### The `ok` passes -/

/-- The token is an `ok` whose number of NULs satisfies `P`. -/
def Token.isOk (P : ℕ → Bool) : Token → Bool
  | .ok nuls _ => P nuls
  | _ => false

@[simp] theorem Token.isOk_byte (P : ℕ → Bool) (b : UInt8) : (Token.byte b).isOk P = false := rfl

@[simp] theorem Token.isOk_ok (P : ℕ → Bool) (nuls crs : ℕ) :
    (Token.ok nuls crs).isOk P = P nuls := rfl

@[simp] theorem Token.isOk_err (P : ℕ → Bool) (text : Bytes) : (Token.err text).isOk P = false :=
  rfl

theorem OkEnd.of_suffix {y x : Bytes} (h : OkEnd y) (hyx : y <:+ x) : OkEnd x := by
  obtain ⟨w, rfl⟩ := hyx
  obtain ⟨v, nuls, crs, he⟩ := h
  exact ⟨w ++ v, nuls, crs, by rw [List.append_assoc, he, List.append_assoc]⟩

theorem okEnd_of_suffix {x : Bytes} {nuls crs : ℕ} (h : okAck nuls crs <:+ x ++ [LF]) :
    OkEnd x := by
  obtain ⟨w, hw⟩ := h
  exact ⟨w, nuls, crs, hw.symm⟩

/-- Two `ok`s that end the same bytes are the same kind of `ok`. -/
theorem nuls_eq_of_suffix {l : Bytes} {n c n' c' : ℕ} (h : okAck n c <:+ l)
    (h' : okAck n' c' <:+ l) : n = n' := by
  rcases List.suffix_or_suffix_of_suffix h h' with ⟨w, hw⟩ | ⟨w, hw⟩
  · obtain rfl := eq_nil_of_okAck_suffix hw
    exact okAck_nuls_inj hw
  · obtain rfl := eq_nil_of_okAck_suffix hw
    exact okAck_nuls_inj hw.symm

theorem not_okEnd_of_notMem {x : Bytes} (h : 'o'.toUInt8 ∉ x) : ¬ OkEnd x := by
  rintro ⟨y, nuls, crs, he⟩
  have hmem : 'o'.toUInt8 ∈ x ++ [LF] := by
    rw [he]
    simp [okAck]
  rcases List.mem_append.mp hmem with hx | hLF
  · exact h hx
  · exact absurd hLF (by decide)

/-- No `o` stands in the marker's last byte: an `ok` at the end of an error line is
inside its text. -/
theorem not_okEnd_errAck {y text : Bytes} (h : ¬ OkEnd text) :
    ¬ OkEnd (y ++ errorMarker ++ text) := by
  rintro ⟨v, nuls, crs, he⟩
  rw [List.append_assoc, List.append_eq_append_iff] at he
  rcases he with ⟨w, hv, htext⟩ | ⟨w, hy, hack⟩
  · exact h ⟨w, nuls, crs, htext⟩
  · -- the `ok` would hold the colon of the marker
    rcases List.eq_nil_or_concat w with rfl | ⟨w, c, rfl⟩
    · exact h ⟨[], nuls, crs, by simpa using hack.symm⟩
    · have hc : c = ':'.toUInt8 := by
        have hlast := congrArg List.getLast? hy
        simpa [List.concat_eq_append, errorMarker, ascii] using hlast.symm
      have hmem : ':'.toUInt8 ∈ okAck nuls crs := by
        rw [hack, ← hc]
        simp
      simp only [okAck, List.mem_cons, List.mem_append, List.mem_replicate, List.not_mem_nil,
        or_false] at hmem
      rcases hmem with h | ⟨-, h⟩ | h | ⟨-, h⟩ | h <;> revert h <;> decide

namespace FlowInner

variable {m : Bytes → Option ℕ} {P : ℕ → Bool}

/-- Bytes in which no match starts stay in the buffer. -/
theorem extractOks_skip {z : Bytes} (hz : ∀ b, Search.NoMatchIn m z b) (n : ℕ) :
    ∀ (b : Bytes) (f : FlowInner), extractOks (Search.leftmost m) n (f.withBuffer (z ++ b))
      = (let r := extractOks (Search.leftmost m) n (f.withBuffer b)
        (r.1.withBuffer (z ++ r.1.statusBuffer), r.2)) := by
  induction n with
  | zero => intro b f; rfl
  | succ n ih =>
    intro b f
    simp only [extractOks, withBuffer_statusBuffer, Search.leftmost_append (hz b)]
    cases Search.leftmost m b with
    | none => rfl
    | some p =>
      simp only [Option.map_some, drain_append, withBuffer_withBuffer, acknowledge_withBuffer, ih]

/-- **One `ok` pass** cuts out exactly the `ok`s of its kind. -/
theorem extractOks_pass (hm : OkMatcher m P) {p : Bytes} (hp : LF ∉ p) :
    ∀ (ts : List Token) (x y : Bytes) (n : ℕ) (f : FlowInner), Tidy x ts → y <:+ x → LF ∉ y →
      ts.countP (Token.isOk P) ≤ n →
      extractOks (Search.leftmost m) n (f.withBuffer (y ++ (render ts ++ p)))
        = acked (acksOf (ts.filter (Token.isOk P)))
            (y ++ (render (ts.filter fun t => !t.isOk P) ++ p)) f := by
  intro ts
  induction ts with
  | nil =>
    intro x y n f _ _ hy _
    have hLF : LF ∉ y ++ p := by simp [hy, hp]
    cases n with
    | zero => rfl
    | succ n =>
      simp [extractOks, hm.leftmost_eq_none hLF, acksOf]
  | cons t ts ih =>
    intro x y n f hc hyx hy hn
    -- a token of another kind, with what stands before it in its line
    have skip (z w : Bytes) (hz : LF ∉ z)
        (hend : ∀ nuls crs, P nuls = true → ¬ okAck nuls crs <:+ z ++ [LF])
        (hc' : Tidy w ts) (hn' : ts.countP (Token.isOk P) ≤ n) :
        extractOks (Search.leftmost m) n (f.withBuffer (z ++ [LF] ++ (render ts ++ p)))
          = acked (acksOf (ts.filter (Token.isOk P)))
              (z ++ [LF] ++ (render (ts.filter fun t => !t.isOk P) ++ p)) f := by
      have h := ih w [] n f hc' List.nil_suffix List.not_mem_nil hn'
      rw [List.nil_append, List.nil_append] at h
      rw [extractOks_skip (hm.noMatchIn hz hend), h]
      rfl
    cases t with
    | byte b =>
      have hn' : ts.countP (Token.isOk P) ≤ n := by simpa using hn
      simp only [Tidy] at hc
      simp only [List.filter_cons, Token.isOk_byte, Bool.not_false, if_true, render_cons, Token.render,
        Bool.false_eq_true, if_false]
      split_ifs at hc with hb
      · subst hb
        have h := skip y [] hy (fun nuls crs _ he =>
          hc.1.1 ((okEnd_of_suffix he).of_suffix hyx)) hc.2 hn'
        simpa using h
      · have hyb : LF ∉ y ++ [b] := by simp [hy, Ne.symm hb]
        have h := ih (x ++ [b]) (y ++ [b]) n f hc
          (by obtain ⟨w, rfl⟩ := hyx; exact ⟨w, by simp⟩) hyb hn'
        simpa using h
    | ok nuls crs =>
      cases hP : P nuls with
      | true =>
        obtain ⟨n, rfl⟩ : ∃ k, n = k + 1 := by
          refine Nat.exists_eq_succ_of_ne_zero fun h0 => ?_
          simp [hP, h0] at hn
        have hn' : ts.countP (Token.isOk P) ≤ n := by simpa [hP] using hn
        have hhit : Search.leftmost m (y ++ (okAck nuls crs ++ (render ts ++ p)))
            = some (y.length, y.length + (okAck nuls crs).length) :=
          Search.leftmost_hit (hm.noMatchIn_okAck hy nuls crs _) (by simp [okAck])
            (hm.complete nuls crs _ hP)
        simp only [render_cons, Token.render, List.append_assoc, extractOks,
          withBuffer_statusBuffer, hhit, drain_between, withBuffer_withBuffer,
          acknowledge_withBuffer, List.filter_cons, Token.isOk_ok, hP, if_true, acksOf, acked_cons,
          Bool.not_true, Bool.false_eq_true, if_false, ih x y n _ hc hyx hy hn']
      | false =>
        have hn' : ts.countP (Token.isOk P) ≤ n := by simpa [hP] using hn
        have hLF : LF ∉ y ++ okHead nuls crs := by simp [hy, LF_notMem_okHead]
        have h := skip (y ++ okHead nuls crs) x hLF ?_ hc hn'
        · simpa [okAck_eq, Token.render, hP] using h
        · intro nuls' crs' hP' he
          rw [List.append_assoc, ← okAck_eq] at he
          rw [nuls_eq_of_suffix he (List.suffix_append y _), hP] at hP'
          cases hP'
    | err text =>
      have hn' : ts.countP (Token.isOk P) ≤ n := by simpa using hn
      have hLF : LF ∉ y ++ errorMarker ++ text := by
        simp only [List.mem_append, not_or]
        exact ⟨⟨hy, by decide⟩, hc.1.1⟩
      have h := skip (y ++ errorMarker ++ text) x hLF (fun nuls crs _ he =>
        not_okEnd_errAck hc.1.2 (okEnd_of_suffix he)) hc.2 hn'
      simpa [errAck, Token.render] using h

end FlowInner

/-! ### The error pass -/

/-- The token is an `error:` line. -/
def Token.isErr : Token → Bool
  | .err _ => true
  | _ => false

@[simp] theorem Token.isErr_byte (b : UInt8) : (Token.byte b).isErr = false := rfl

@[simp] theorem Token.isErr_ok (nuls crs : ℕ) : (Token.ok nuls crs).isErr = false := rfl

@[simp] theorem Token.isErr_err (text : Bytes) : (Token.err text).isErr = true := rfl

/-- What is reported for an error; one that is not valid UTF-8 is dropped. -/
def Token.readErr : Token → Option (GrblResponseType × Text)
  | .err text => (fromUtf8 (errAck text)).map fun error => (.error, trim error)
  | _ => none

@[simp] theorem Token.readErr_byte (b : UInt8) : (Token.byte b).readErr = none := rfl

@[simp] theorem Token.readErr_ok (nuls crs : ℕ) : (Token.ok nuls crs).readErr = none := rfl

@[simp] theorem Token.readErr_err (text : Bytes) : (Token.err text).readErr =
    (fromUtf8 (errAck text)).map fun error => (.error, trim error) := rfl

/-- The marker at the head of the buffer, as a matcher. -/
def markerLen (w : Bytes) : Option ℕ :=
  if errorMarker.isPrefixOf w then some errorMarker.length else none

theorem markerLen_eq_none {w : Bytes} (h : ¬ errorMarker <+: w) : markerLen w = none := by
  rw [markerLen, if_neg]
  rwa [List.isPrefixOf_iff_prefix]

theorem markerLen_append (w : Bytes) : markerLen (errorMarker ++ w) = some errorMarker.length := by
  rw [markerLen, if_pos]
  rw [List.isPrefixOf_iff_prefix]
  exact List.prefix_append _ _

theorem findSubslice_errorMarker (h : Bytes) :
    findSubslice h errorMarker = (Search.leftmost markerLen h).map Prod.fst := by
  rw [findSubslice]
  split_ifs with hc
  · -- a haystack shorter than the marker has no window
    have hlen : h.length < errorMarker.length := by
      simpa [show errorMarker.isEmpty = false from rfl] using hc
    rw [Search.leftmost_eq_none]
    · rfl
    · intro s hs _
      refine markerLen_eq_none fun hpre => ?_
      have h1 := hpre.length_le
      have h2 := hs.length_le
      rw [List.append_nil] at h1
      omega
  · rfl

/-- No marker starts in a line that holds none, whatever follows the line. -/
theorem noMarker_line {z : Bytes} (h : ¬ errorMarker <:+: z) (b : Bytes) :
    Search.NoMatchIn markerLen (z ++ [LF]) b := by
  intro s hs hne
  refine markerLen_eq_none fun hpre => ?_
  rcases List.eq_nil_or_concat s with rfl | ⟨s, c, rfl⟩
  · exact hne rfl
  · rw [List.concat_eq_append] at hs hpre
    obtain ⟨w, hw⟩ := hs
    rw [← List.append_assoc] at hw
    obtain ⟨rfl, hc⟩ := List.append_inj' hw rfl
    obtain rfl : c = LF := List.head_eq_of_cons_eq hc
    obtain ⟨r, hr⟩ := hpre
    rw [List.append_assoc, List.append_eq_append_iff] at hr
    have hsub (v : Bytes) (he : s = errorMarker ++ v) : errorMarker <:+: w ++ s :=
      ⟨w, v, by rw [he, List.append_assoc]⟩
    rcases hr with ⟨v, he, -⟩ | ⟨v, he, hv⟩
    · exact h (hsub v he)
    · -- the marker holds no LF, so it does not reach beyond the line
      cases v with
      | nil => exact h (hsub [] (by simpa using he.symm))
      | cons a v =>
        obtain rfl : LF = a := List.head_eq_of_cons_eq hv
        have hmem : LF ∈ errorMarker := by rw [he]; simp
        exact absurd hmem (by decide)

/-- No marker starts before the first marker. -/
theorem noMarker_marker {y : Bytes} (h : ¬ errorMarker <:+: y) (b : Bytes) :
    Search.NoMatchIn markerLen y (errorMarker ++ b) := by
  intro s hs hne
  refine markerLen_eq_none fun hpre => ?_
  by_cases hlen : errorMarker.length ≤ s.length
  · exact h ((List.prefix_of_prefix_length_le hpre (List.prefix_append _ _) hlen).isInfix.trans
      hs.isInfix)
  · -- the colon of the found marker would stand inside the word of the other
    have h6 : errorMarker.length = 6 := by decide
    have hcolon := (List.prefix_iff_getElem?.mp hpre) 5 (by decide)
    have hpos := List.length_pos_of_ne_nil hne
    rw [List.getElem?_append_right (by omega), List.getElem?_append_left (by omega)] at hcolon
    generalize s.length = k at *
    rw [h6] at hlen
    interval_cases k <;> revert hcolon <;> decide

namespace FlowInner

/-- Bytes in which no marker starts may as well have been searched already. -/
theorem extractErrors_skip {z : Bytes} (hz : ∀ b, Search.NoMatchIn markerLen z b) (n : ℕ)
    (pre : Bytes) : ∀ (b : Bytes) (f : FlowInner),
      extractErrors n pre.length (f.withBuffer (pre ++ z ++ b))
        = extractErrors n (pre ++ z).length (f.withBuffer (pre ++ z ++ b)) := by
  induction n with
  | zero => intro b f; rfl
  | succ n ih =>
    intro b f
    simp only [extractErrors, withBuffer_statusBuffer]
    rw [List.drop_left, List.append_assoc, List.drop_left, findSubslice_errorMarker,
      findSubslice_errorMarker, Search.leftmost_append (hz b)]
    cases hfind : Search.leftmost markerLen b with
    | none => rfl
    | some p =>
      have hstart : pre.length + (p.1 + z.length) = p.1 + (pre ++ z).length := by
        rw [List.length_append]
        omega
      simp only [Option.map_some, hstart, Nat.add_comm _ p.1]
      cases (List.drop (p.1 + (pre ++ z).length) (pre ++ (z ++ b))).idxOf? LF with
      | none => rfl
      | some endRel =>
        dsimp only
        split
        · -- the undecodable line is dropped and the search starts over
          have hstop : p.1 + (pre ++ z).length + endRel + 1
              = p.1 + endRel + 1 + (pre ++ z).length := by omega
          rw [hstop, ← List.append_assoc, drain_append, withBuffer_withBuffer, ih]
        · rfl

/-- **The error pass** cuts out exactly the errors; the search resumes where the
last error that was read stood. -/
theorem extractErrors_pass {p : Bytes} (hp : LF ∉ p) :
    ∀ (ts : List Token) (x y pre : Bytes) (n : ℕ) (f : FlowInner), Tidy x ts → y <:+ x →
      LF ∉ y → (∀ nuls crs, Token.ok nuls crs ∉ ts) → ts.countP Token.isErr ≤ n →
      extractErrors n pre.length (f.withBuffer (pre ++ (y ++ (render ts ++ p))))
        = acked (ts.filterMap Token.readErr)
            (pre ++ (y ++ (render (ts.filter fun t => !t.isErr) ++ p))) f := by
  intro ts
  induction ts with
  | nil =>
    intro x y pre n f _ _ hy _ _
    have hLF : LF ∉ y ++ p := by simp [hy, hp]
    cases n with
    | zero => rfl
    | succ n =>
      simp only [extractErrors, withBuffer_statusBuffer, List.drop_left, render_nil,
        List.nil_append, List.filter_nil, List.filterMap_nil, acked_nil]
      cases findSubslice (y ++ p) errorMarker with
      | none => rfl
      | some rel =>
        -- a marker in the unfinished line waits for its LF
        have hnone : (List.drop (pre.length + rel) (pre ++ (y ++ p))).idxOf? LF = none := by
          rw [List.idxOf?_eq_none_iff, ← List.drop_drop, List.drop_left]
          exact fun hmem => hLF (List.mem_of_mem_drop hmem)
        simp only [hnone]
  | cons t ts ih =>
    intro x y pre n f hc hyx hy hok hn
    have hok' : ∀ nuls crs, Token.ok nuls crs ∉ ts :=
      fun nuls crs h => hok nuls crs (List.mem_cons_of_mem t h)
    cases t with
    | byte b =>
      have hn' : ts.countP Token.isErr ≤ n := by simpa using hn
      simp only [Tidy] at hc
      simp only [List.filter_cons, List.filterMap_cons, Token.isErr_byte, Token.readErr_byte,
        Bool.not_false, if_true, render_cons, Token.render]
      split_ifs at hc with hb
      · subst hb
        have hmark : ¬ errorMarker <:+: y := fun h => hc.1.2 (h.trans hyx.isInfix)
        have h := ih [] [] (pre ++ (y ++ [LF])) n f hc.2 List.nil_suffix List.not_mem_nil hok' hn'
        have hskip := extractErrors_skip (noMarker_line hmark) n pre (render ts ++ p) f
        simp only [List.append_assoc, List.nil_append] at h hskip
        simpa using hskip.trans h
      · have hyb : LF ∉ y ++ [b] := by simp [hy, Ne.symm hb]
        have h := ih (x ++ [b]) (y ++ [b]) pre n f hc
          (by obtain ⟨w, rfl⟩ := hyx; exact ⟨w, by simp⟩) hyb hok' hn'
        simpa using h
    | ok nuls crs => exact absurd List.mem_cons_self (hok nuls crs)
    | err text =>
      obtain ⟨n, rfl⟩ : ∃ k, n = k + 1 := by
        refine Nat.exists_eq_succ_of_ne_zero fun h0 => ?_
        simp [h0] at hn
      have hn' : ts.countP Token.isErr ≤ n := by
        rw [List.countP_cons_of_pos rfl] at hn
        omega
      have hmark : ¬ errorMarker <:+: y := fun h => hc.2.no_marker (h.trans hyx.isInfix)
      have hfind : findSubslice (y ++ (errAck text ++ (render ts ++ p))) errorMarker
          = some y.length := by
        rw [findSubslice_errorMarker, errAck, List.append_assoc, List.append_assoc,
          Search.leftmost_hit (noMarker_marker hmark _) (by simp [errorMarker, ascii])
            (markerLen_append _)]
        rfl
      have hdrop : List.drop (pre.length + y.length) (pre ++ (y ++ (errAck text ++ (render ts ++ p))))
          = errAck text ++ (render ts ++ p) := by
        rw [← List.drop_drop, List.drop_left, List.drop_left]
      have hidx : (errAck text ++ (render ts ++ p)).idxOf? LF
          = some (errorMarker ++ text).length := by
        rw [errAck, List.append_assoc, List.singleton_append, idxOf?_LF]
        rw [List.mem_append, not_or]
        exact ⟨by decide, hc.1.1⟩
      have htake : List.take ((errorMarker ++ text).length + 1) (errAck text ++ (render ts ++ p))
          = errAck text := by
        rw [List.take_left' (by simp [errAck, Nat.add_assoc])]
      have hdrain : drain (pre.length + y.length)
          (pre.length + y.length + (errorMarker ++ text).length + 1)
          (pre ++ (y ++ (errAck text ++ (render ts ++ p)))) = pre ++ y ++ (render ts ++ p) := by
        have h := drain_between (pre ++ y) (errAck text) (render ts ++ p)
        simpa [errAck, Nat.add_assoc] using h
      simp only [render_cons, Token.render, List.append_assoc, extractErrors,
        withBuffer_statusBuffer, List.drop_left, hfind, hdrop, hidx, htake, hdrain,
        withBuffer_withBuffer]
      rw [List.filter_cons_of_neg (by simp), List.filterMap_cons, Token.readErr_err]
      cases herror : fromUtf8 (errAck text) with
      | none =>
        -- it is dropped, and the search goes on from where it was
        have h := ih x y pre n f hc.2 hyx hy hok' hn'
        simpa only [List.append_assoc, Option.map_none] using h
      | some error =>
        have h := ih x [] (pre ++ y) n (f.acknowledge .error (trim error)).1 hc.2 List.nil_suffix
          List.not_mem_nil hok' hn'
        simp only [List.append_assoc, acknowledge_withBuffer, List.nil_append, Option.map_some] at h ⊢
        rw [List.length_append] at h
        rw [h, acked_cons]

end FlowInner

/-! ### The line pass -/

theorem handleMessage_lines (f : FlowInner) : ∀ ls : List Text,
    (∀ t ∈ ls.filter fun l => !l.isEmpty,
      t ≠ "ok".toList ∧ startsWith "error:".toList t = false) →
    handleMessage ls f = (f, (ls.filter fun l => !l.isEmpty).map .line) := by
  intro ls
  induction ls with
  | nil => intro _; rfl
  | cons l ls ih =>
    intro h
    by_cases hl : l.isEmpty
    · rw [List.filter_cons_of_neg (by simp [hl])] at h ⊢
      simp [handleMessage, hl, ih h]
    · have hl' : (!l.isEmpty) = true := by simpa using hl
      have hcons : (l :: ls).filter (fun l => !l.isEmpty) = l :: ls.filter fun l => !l.isEmpty :=
        List.filter_cons_of_pos hl'
      rw [hcons] at h ⊢
      have hline := h l List.mem_cons_self
      have h' := ih fun t ht => h t (List.mem_cons_of_mem l ht)
      have herr : ¬ startsWith "error:".toList l = true := by rw [hline.2]; exact Bool.false_ne_true
      rw [handleMessage, if_neg hl, if_neg hline.1, if_neg herr]
      simp only [h', List.map_cons]

/-- **The line pass** reports the finished lines and keeps the unfinished one. -/
theorem splitLines_pass {p : Bytes} (hp : LF ∉ p) :
    ∀ (l x : Bytes) (n : ℕ) (f : FlowInner), Clean x (l.map .byte) → LF ∉ x →
      l.countP (· == LF) ≤ n →
      splitLines n (f.withBuffer (x ++ (l ++ p)))
        = (f.withBuffer (unfinished x l ++ p), (finished x l).map .line) := by
  intro l
  induction l with
  | nil =>
    intro x n f _ hx _
    have hnone : (x ++ p).idxOf? LF = none := by
      rw [List.idxOf?_eq_none_iff, List.mem_append, not_or]
      exact ⟨hx, hp⟩
    cases n with
    | zero => rfl
    | succ n => simp [splitLines, hnone, unfinished, finished]
  | cons b l ih =>
    intro x n f hc hx hn
    simp only [List.map_cons, Clean] at hc
    simp only [unfinished, finished]
    split_ifs at hc ⊢ with hb
    · subst hb
      obtain ⟨n, rfl⟩ : ∃ k, n = k + 1 := by
        refine Nat.exists_eq_succ_of_ne_zero fun h0 => ?_
        simp [h0] at hn
      have hn' : l.countP (· == LF) ≤ n := by
        rw [List.countP_cons_of_pos (by simp)] at hn
        omega
      have htake : List.take (x.length + 1) (x ++ LF :: (l ++ p)) = x ++ [LF] := by
        rw [List.take_append]
        simp
      have hdrop : List.drop (x.length + 1) (x ++ LF :: (l ++ p)) = l ++ p := by
        rw [List.drop_append]
        simp
      have hrest := ih [] n f hc.2 List.not_mem_nil hn'
      rw [List.nil_append] at hrest
      simp only [List.cons_append, splitLines, withBuffer_statusBuffer, idxOf?_LF hx, htake, hdrop,
        withBuffer_withBuffer]
      have hack := hc.1.not_ack
      rw [lineTexts] at hack ⊢
      cases hutf : fromUtf8 (x ++ [LF]) with
      | none => simp [hrest]
      | some message =>
        rw [hutf] at hack
        simp [handleMessage_lines _ _ hack, hrest]
    · have hn' : l.countP (· == LF) ≤ n := by simpa [hb] using hn
      have hxb : LF ∉ x ++ [b] := by simp [hx, Ne.symm hb]
      simpa using ih (x ++ [b]) n f hc hxb hn'

/-! ### One call of `parse_incoming` -/

theorem Clean.filter {keep : Token → Bool} (hk : ∀ b, keep (.byte b) = true) :
    ∀ {ts : List Token} {x : Bytes}, Clean x ts → Clean x (ts.filter keep) := by
  intro ts
  induction ts with
  | nil => intro x h; exact h
  | cons t ts ih =>
    intro x h
    cases t with
    | byte b =>
      rw [List.filter_cons_of_pos (hk b)]
      simp only [Clean] at h ⊢
      split_ifs at h ⊢
      · exact ⟨h.1, ih h.2⟩
      · exact ih h
    | ok nuls crs =>
      rw [List.filter_cons]
      split_ifs
      · exact ih (show Clean x ts from h)
      · exact ih (show Clean x ts from h)
    | err text =>
      rw [List.filter_cons]
      split_ifs
      · exact ⟨h.1, ih h.2⟩
      · exact ih h.2

theorem info_filter {keep : Token → Bool} (hk : ∀ b, keep (.byte b) = true) (ts : List Token) :
    info (ts.filter keep) = info ts := by
  induction ts with
  | nil => rfl
  | cons t ts ih =>
    cases t with
    | byte b => rw [List.filter_cons_of_pos (hk b), info, info, ih]
    | ok nuls crs => rw [List.filter_cons]; split_ifs <;> simpa [info] using ih
    | err text => rw [List.filter_cons]; split_ifs <;> simpa [info] using ih

/-- A token list without acknowledgements is its informational text. -/
theorem eq_map_byte_info {ts : List Token} (hok : ∀ nuls crs, Token.ok nuls crs ∉ ts)
    (herr : ∀ text, Token.err text ∉ ts) : ts = (info ts).map .byte := by
  induction ts with
  | nil => rfl
  | cons t ts ih =>
    have h := ih (fun n c h => hok n c (List.mem_cons_of_mem t h))
      (fun e h => herr e (List.mem_cons_of_mem t h))
    cases t with
    | byte b => rw [info, List.map_cons, ← h]
    | ok nuls crs => exact absurd List.mem_cons_self (hok nuls crs)
    | err text => exact absurd List.mem_cons_self (herr text)

theorem length_le_render (ts : List Token) : ts.length ≤ (render ts).length := by
  induction ts with
  | nil => exact le_refl 0
  | cons t ts ih =>
    have ht : 0 < t.render.length := by
      cases t <;> simp [Token.render, okAck, errAck]
    rw [render_cons, List.length_cons, List.length_append]
    omega

/-- The order in which one call accounts for the acknowledgements of its buffer: the
plain `ok`s, the NUL-corrupted ones, then the errors. -/
def passOrder (ts : List Token) : List (GrblResponseType × Text) :=
  acksOf (ts.filter (Token.isOk fun n => n == 0)) ++
    acksOf (ts.filter (Token.isOk fun n => n != 0)) ++ acksOf (ts.filter Token.isErr)

theorem length_filter_passes (ts : List Token) : (passOrder ts).length = (acksOf ts).length := by
  induction ts with
  | nil => rfl
  | cons t ts ih =>
    unfold passOrder at ih ⊢
    cases t with
    | byte b => simpa [List.filter_cons, Token.isOk, Token.isErr, acksOf] using ih
    | ok nuls crs =>
      by_cases hn : nuls = 0
      · simp [Token.isOk, Token.isErr, acksOf, hn] at ih ⊢
        omega
      · simp [List.filter_cons, Token.isOk, Token.isErr, acksOf, hn] at ih ⊢
        omega
    | err text =>
      simp [List.filter_cons, Token.isOk, Token.isErr, acksOf] at ih ⊢
      omega

/-- The acknowledgements the three passes over a tidy buffer read: those of `passOrder`, but
for the errors that are dropped. -/
def readOrder (ts : List Token) : List (GrblResponseType × Text) :=
  acksOf (ts.filter (Token.isOk fun n => n == 0)) ++
    acksOf (ts.filter (Token.isOk fun n => n != 0)) ++ ts.filterMap Token.readErr

/-- In a clean stream no error is dropped. -/
theorem Clean.readOrder : ∀ {ts : List Token} {x : Bytes}, Clean x ts →
    readOrder ts = passOrder ts := by
  have herrs : ∀ (ts : List Token) (x : Bytes), Clean x ts →
      ts.filterMap Token.readErr = acksOf (ts.filter Token.isErr) := by
    intro ts
    induction ts with
    | nil => intro x _; rfl
    | cons t ts ih =>
      intro x h
      cases t with
      | byte b =>
        simp only [Clean] at h
        split_ifs at h
        · exact ih _ h.2
        · exact ih _ h
      | ok nuls crs => exact ih x h
      | err text =>
        obtain ⟨error, herror⟩ := Option.isSome_iff_exists.mp h.1.isSome
        rw [List.filterMap_cons, Token.readErr_err, herror, List.filter_cons_of_pos rfl, acksOf,
          errText, herror, ← ih x h.2]
        rfl
  intro ts x h
  rw [Raydriver.readOrder, passOrder, herrs ts x h]

/-- **The three passes over a tidy buffer** cut out its acknowledgements. -/
theorem extractAcks_tidy {ts : List Token} {p : Bytes} (hc : Tidy [] ts) (hp : LF ∉ p)
    (f : FlowInner) : (f.withBuffer (render ts ++ p)).extractAcksFromBuffer
      = acked (readOrder ts) (info ts ++ p) f := by
  have hlen (us : List Token) (q : Token → Bool) : us.countP q ≤ (render us ++ p).length := by
    have h1 := List.countP_le_length (p := q) (l := us)
    have h2 := length_le_render us
    rw [List.length_append]
    omega
  -- the tokens left after each of the three passes
  set us := ts.filter fun t => !t.isOk fun n => n == 0 with hus
  set vs := us.filter fun t => !t.isOk fun n => n != 0 with hvs
  set ws := vs.filter fun t => !t.isErr with hws
  have hcu : Tidy [] us := hc.filter fun b => rfl
  have hcv : Tidy [] vs := hcu.filter fun b => rfl
  have hok : ∀ nuls crs, Token.ok nuls crs ∉ vs := by
    intro nuls crs h
    rw [hvs, hus] at h
    simp at h
  have hbytes : ws = (info ts).map .byte := by
    have hinfo : info ws = info ts := by
      rw [hws, info_filter fun b => rfl, hvs, info_filter fun b => rfl, hus,
        info_filter fun b => rfl]
    rw [← hinfo]
    refine eq_map_byte_info (fun nuls crs h => hok nuls crs (List.mem_of_mem_filter h)) ?_
    intro text h
    rw [hws] at h
    simp at h
  have hA2 : us.filter (Token.isOk fun n => n != 0) = ts.filter (Token.isOk fun n => n != 0) := by
    rw [hus, List.filter_filter]
    refine List.filter_congr fun t _ => ?_
    cases t <;> simp
  have hA3 : vs.filterMap Token.readErr = ts.filterMap Token.readErr := by
    rw [hvs, hus, List.filter_filter, List.filterMap_filter]
    congr 1
    funext t
    cases t <;> simp
  have h1 : extractOks findOkAck (render ts ++ p).length (f.withBuffer (render ts ++ p))
      = acked (acksOf (ts.filter (Token.isOk fun n => n == 0))) (render us ++ p) f :=
    extractOks_pass okMatcher_okAckLen hp ts [] [] _ f hc List.nil_suffix List.not_mem_nil
      (hlen ts _)
  have h2 (g : FlowInner) :
      extractOks findNullCorruptedOk (render us ++ p).length (g.withBuffer (render us ++ p))
        = acked (acksOf (ts.filter (Token.isOk fun n => n != 0))) (render vs ++ p) g := by
    rw [← hA2]
    exact extractOks_pass okMatcher_nullOkLen hp us [] [] _ g hcu List.nil_suffix
      List.not_mem_nil (hlen us _)
  have h3 (g : FlowInner) :
      extractErrors (render vs ++ p).length 0 (g.withBuffer (render vs ++ p))
        = acked (ts.filterMap Token.readErr) (render ws ++ p) g := by
    rw [← hA3]
    exact extractErrors_pass hp vs [] [] [] _ g hcv List.nil_suffix List.not_mem_nil hok
      (hlen vs _)
  have hleft : render ws = info ts := by rw [hbytes, render_bytes]
  rw [readOrder, acked_append _ _ (render vs ++ p), acked_append _ _ (render us ++ p)]
  simp only [extractAcksFromBuffer, h1, acked, withBuffer_statusBuffer, h2, h3, hleft,
    acknowledgeAll_withBuffer, withBuffer_withBuffer, List.append_assoc]

/-- **The specification of `parse_incoming`**: on a buffer that holds a clean token
list and the start of the next token, one call accounts for the acknowledgements in
pass order, reports the finished lines and keeps the unfinished one. -/
theorem parseExtracted_tokens {data : Bytes} {f : FlowInner} {ts : List Token} {p : Bytes}
    (hb : f.statusBuffer ++ data = render ts ++ p) (hc : Clean [] ts) (hp : LF ∉ p) :
    f.parseExtracted data
      = ((acked (passOrder ts) (carry [] ts ++ p) f).1,
          (acked (passOrder ts) (carry [] ts ++ p) f).2 ++ (lineEvents [] ts).map .line) := by
  have hclean : Clean [] ((info ts).map .byte) := by
    have hfilter : Clean [] (ts.filter fun t => !t.isErr && !t.isOk fun _ => true) :=
      hc.filter fun b => rfl
    have hbytes : (ts.filter fun t => !t.isErr && !t.isOk fun _ => true) = (info ts).map .byte := by
      refine (eq_map_byte_info (by simp) (by simp)).trans ?_
      rw [info_filter fun b => rfl]
    rwa [hbytes] at hfilter
  have hlines (g : FlowInner) :
      splitLines (info ts ++ p).length (g.withBuffer (info ts ++ p))
        = (g.withBuffer (carry [] ts ++ p), (lineEvents [] ts).map .line) := by
    refine splitLines_pass hp (info ts) [] _ g hclean List.not_mem_nil ?_
    rw [List.length_append]
    exact Nat.le_add_right_of_le (List.countP_le_length)
  simp only [parseExtracted, hb, extractAcks_tidy hc.tidy hp, hc.readOrder, acked,
    withBuffer_statusBuffer, hlines]

end Raydriver
