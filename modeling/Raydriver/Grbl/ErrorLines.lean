import Raydriver.Grbl.Attribution
import Raydriver.Grbl.Demux

/-!
# Error lines with damaged text

Line noise may leave any bytes behind an `error:`, up to the newline.  The device has
freed a command either way, so the host has to count the line whatever it holds.  The
error pass cuts the line out of the buffer before it decodes it, and the `ok` passes
have been over its bytes before: both can lose it.

## Main definitions

* `Noisy` — a stream whose error lines hold any bytes.
* `ErrorsCounted` — each error line is answered by one error, and each acknowledgement
  frees one command.

## Main results

* `error_line_as_ok` — an error text that ends in an `ok` is taken for that `ok`.
* `error_line_dropped` — an error text that does not decode leaves no trace.
* `errors_counted_iff` — **the error lines of a stream are counted, whatever the
  cutting, exactly when each of them decodes and none ends in an `ok`**.
-/

namespace Raydriver

open FlowInner

/-! ### Streams with damaged error lines -/

/-- The stream, entered with the unfinished line `x`, holds no acknowledgements but its
tokens; the text of an error is any bytes up to the newline. -/
def Noisy : Bytes → List Token → Prop
  | x, [] => ¬ errorMarker <:+: x
  | x, .byte b :: ts => if b = LF then Quiet x ∧ Noisy [] ts else Noisy (x ++ [b]) ts
  | x, .ok _ _ :: ts => Noisy x ts
  | x, .err text :: ts => LF ∉ text ∧ Noisy x ts

/-- A stream whose error texts are all whole is clean. -/
theorem Noisy.clean : ∀ {ts : List Token} {x : Bytes}, Noisy x ts →
    (∀ text, .err text ∈ ts → ErrText text) → Clean x ts := by
  intro ts
  induction ts with
  | nil => intro x h _; exact h
  | cons t ts ih =>
    intro x h herr
    have herr' : ∀ text, .err text ∈ ts → ErrText text :=
      fun text ht => herr text (List.mem_cons_of_mem t ht)
    cases t with
    | byte b =>
      simp only [Noisy] at h
      simp only [Clean]
      split_ifs at h ⊢
      · exact ⟨h.1, ih h.2 herr'⟩
      · exact ih h herr'
    | ok nuls crs => exact ih h herr'
    | err text => exact ⟨herr text List.mem_cons_self, ih h.2 herr'⟩

theorem Noisy.no_marker : ∀ {ts : List Token} {x : Bytes}, Noisy x ts → ¬ errorMarker <:+: x := by
  intro ts
  induction ts with
  | nil => intro x h; exact h
  | cons t ts ih =>
    intro x h
    cases t with
    | byte b =>
      simp only [Noisy] at h
      split_ifs at h
      · exact h.1.no_marker
      · exact fun hx => ih h (hx.trans (List.prefix_append x [b]).isInfix)
    | ok nuls crs => exact ih h
    | err text => exact ih h.2

/-- A noisy stream stays one up to any of its tokens. -/
theorem Noisy.left {us : List Token} : ∀ {ts : List Token} {x : Bytes},
    Noisy x (ts ++ us) → Noisy x ts := by
  intro ts
  induction ts with
  | nil => intro x h; exact h.no_marker
  | cons t ts ih =>
    intro x h
    cases t with
    | byte b =>
      simp only [List.cons_append, Noisy] at h ⊢
      split_ifs at h ⊢
      · exact ⟨h.1, ih h.2⟩
      · exact ih h
    | ok nuls crs => exact ih h
    | err text => exact ⟨h.1, ih h.2⟩

/-- The text of an error anywhere in a noisy stream holds no newline. -/
theorem Noisy.no_LF {text : Bytes} : ∀ {ts : List Token} {x : Bytes}, Noisy x ts →
    .err text ∈ ts → LF ∉ text := by
  intro ts
  induction ts with
  | nil => intro x _ h; exact absurd h List.not_mem_nil
  | cons t ts ih =>
    intro x h hmem
    rcases List.mem_cons.mp hmem with rfl | htail
    · exact h.1
    · cases t with
      | byte b =>
        simp only [Noisy] at h
        split_ifs at h
        · exact ih h.2 htail
        · exact ih h htail
      | ok nuls crs => exact ih h htail
      | err text' => exact ih h.2 htail

/-! ### What is counted -/

/-- The calls on the chunks `cs` return one error response for each error line of `us`,
and the accounting has let go of one command for each acknowledgement. -/
def ErrorsCounted (f : FlowInner) (us : List Token) (cs : List Bytes) : Prop :=
  (textsOf .error (f.parseIncomingAll cs).2).length = us.countP Token.isErr ∧
    (f.parseIncomingAll cs).1.pending = f.pending.drop (acksOf us).length

theorem acknowledgeAll_pending (as : List (GrblResponseType × Text)) : ∀ f : FlowInner,
    (f.acknowledgeAll as).1.pending = f.pending.drop as.length := by
  induction as with
  | nil => intro f; rfl
  | cons a as ih =>
    intro f
    rw [acknowledgeAll, ih, acknowledge_pending, List.length_cons, List.drop_tail]

theorem length_acksOf_isErr (ts : List Token) :
    (acksOf (ts.filter Token.isErr)).length = ts.countP Token.isErr := by
  induction ts with
  | nil => rfl
  | cons t ts ih =>
    cases t with
    | byte b => exact ih
    | ok nuls crs => exact ih
    | err text => rw [List.filter_cons_of_pos rfl, List.countP_cons_of_pos rfl, acksOf,
        List.length_cons, ih]

theorem length_flatMap_passOrder (vss : List (List Token)) :
    (vss.flatMap passOrder).length = (acksOf vss.flatten).length := by
  induction vss with
  | nil => rfl
  | cons vs vss ih =>
    rw [List.flatMap_cons, List.flatten_cons, acksOf_append, List.length_append,
      List.length_append, length_filter_passes, ih]

/-- The tokens of a clean stream are counted, whatever the cutting. -/
theorem errorsCounted_of_clean {f : FlowInner} {us : List Token} {p : Bytes} {cs : List Bytes}
    (hbuffer : LF ∉ f.statusBuffer) (hc : Clean f.statusBuffer us) (hp : LF ∉ p)
    (hcs : cs.flatten = render us ++ p) :
    ErrorsCounted f us cs ∧ (p = [] → (f.parseChunks cs).1.statusBuffer
      = carry f.statusBuffer us) := by
  have hcarry := carry_bytes [] hbuffer
  rw [List.nil_append] at hcarry
  have hnil : cs = [] → us = [] := by
    rintro rfl
    have hlen := length_le_render us
    have hz : (render us).length = 0 := by
      have := congrArg List.length hcs
      simp only [List.flatten_nil, List.length_nil, List.length_append] at this
      omega
    exact List.length_eq_zero_iff.mp (by omega)
  -- the unfinished line is a stream of bytes that has been read before
  obtain ⟨vss, rfl, -, hfst, hack, -⟩ :=
    parseChunks_tokens hp cs (f.statusBuffer.map .byte) us [] f
      (clean_bytes f.statusBuffer [] hbuffer hc) (by rw [hcarry, List.append_nil])
      (by simpa using hcs) hnil
  have htexts : (f.parseChunks cs).2.filterMap Extracted.ackText = vss.flatMap passOrder := by
    rw [← ackText_filter, hack, ackText_acknowledgeAll]
  refine ⟨⟨?_, ?_⟩, ?_⟩
  · rw [parseIncomingAll_eq, textsOf_ack (by decide), htexts,
      filter_flatMap_passOrder (by decide), filter_error_acksOf, List.length_map,
      length_acksOf_isErr]
  · rw [parseIncomingAll_eq, hfst, acked, withBuffer_pending, acknowledgeAll_pending,
      length_flatMap_passOrder]
  · rintro rfl
    rw [hfst, acked, withBuffer_statusBuffer, List.append_nil, carry_append, hcarry]

/-! ### Lost error lines -/

theorem extractOks_of_notMem {m : Bytes → Option ℕ} {P : ℕ → Bool} (hm : OkMatcher m P)
    {f : FlowInner} (hf : LF ∉ f.statusBuffer) (n : ℕ) :
    extractOks (Search.leftmost m) n f = (f, []) := by
  cases n with
  | zero => rfl
  | succ n => rw [extractOks, hm.leftmost_eq_none hf]

theorem extractErrors_of_notMem {f : FlowInner} (hf : LF ∉ f.statusBuffer) (n k : ℕ) :
    extractErrors n k f = (f, []) := by
  cases n with
  | zero => rfl
  | succ n =>
    rw [extractErrors]
    cases findSubslice (f.statusBuffer.drop k) errorMarker with
    | none => rfl
    | some rel =>
      have hnone : (f.statusBuffer.drop (k + rel)).idxOf? LF = none := by
        rw [List.idxOf?_eq_none_iff]
        exact fun hmem => hf (List.mem_of_mem_drop hmem)
      simp only [hnone]

theorem splitLines_of_notMem {f : FlowInner} (hf : LF ∉ f.statusBuffer) (n : ℕ) :
    splitLines n f = (f, []) := by
  cases n with
  | zero => rfl
  | succ n => rw [splitLines, List.idxOf?_eq_none_iff.mpr hf]

/-- One `ok` pass over a line that ends in an `ok`: cut out, or left for the other pass. -/
theorem extractOks_okEnd {m : Bytes → Option ℕ} {P : ℕ → Bool} (hm : OkMatcher m P) {v : Bytes}
    (hv : LF ∉ v) (nuls crs n : ℕ) (f : FlowInner) :
    extractOks (Search.leftmost m) (n + 1) (f.withBuffer (v ++ okAck nuls crs))
      = if P nuls then acked [(.ok, "ok".toList)] v f
        else (f.withBuffer (v ++ okAck nuls crs), []) := by
  split_ifs with hP
  · have hcomplete := hm.complete nuls crs [] hP
    have hhit : Search.leftmost m (v ++ okAck nuls crs)
        = some (v.length, v.length + (okAck nuls crs).length) := by
      have hno := hm.noMatchIn_okAck hv nuls crs []
      rw [List.append_nil] at hno hcomplete
      exact Search.leftmost_hit hno (by simp [okAck]) hcomplete
    have hdrain := drain_between v (okAck nuls crs) []
    rw [List.append_nil, List.append_nil] at hdrain
    have hrest := extractOks_of_notMem hm
      (f := (f.acknowledge .ok "ok".toList).1.withBuffer v) hv n
    simp only [extractOks, withBuffer_statusBuffer, hhit, hdrain, withBuffer_withBuffer,
      acknowledge_withBuffer, hrest, acked_cons, acked_nil]
  · have hLF : LF ∉ v ++ okHead nuls crs := by simp [hv, LF_notMem_okHead]
    have hskip := extractOks_skip (hm.noMatchIn hLF fun nuls' crs' hP' he => ?_) (n + 1) [] f
    · rw [extractOks_of_notMem hm (f := f.withBuffer []) List.not_mem_nil] at hskip
      simpa [okAck_eq] using hskip
    · rw [List.append_assoc, ← okAck_eq] at he
      rw [nuls_eq_of_suffix he (List.suffix_append v _)] at hP'
      exact hP hP'

theorem length_okAck_pos (v : Bytes) (nuls crs : ℕ) :
    ∃ n, (v ++ okAck nuls crs).length = n + 1 :=
  ⟨(v ++ okHead nuls crs).length, by rw [okAck_eq, ← List.append_assoc, List.length_append]; rfl⟩

/-- **An error text that ends in an `ok` is taken for that `ok`**: the command is freed,
no error is reported and the start of the line stays in the buffer. -/
theorem error_line_as_ok {f : FlowInner} {text : Bytes} (hbuffer : LF ∉ f.statusBuffer)
    (hLF : LF ∉ text) (hend : OkEnd text) :
    ∃ v, LF ∉ v ∧ f.parseExtracted (errAck text) = acked [(.ok, "ok".toList)] v f := by
  obtain ⟨w, nuls, crs, he⟩ := hend
  have hw : LF ∉ w := by
    rw [okAck_eq, ← List.append_assoc] at he
    rw [(List.append_inj' he rfl).1] at hLF
    exact fun h => hLF (List.mem_append_left _ h)
  have hv : LF ∉ f.statusBuffer ++ errorMarker ++ w := by
    simp only [List.mem_append, not_or]
    exact ⟨⟨hbuffer, by decide⟩, hw⟩
  have hb : f.statusBuffer ++ errAck text
      = f.statusBuffer ++ errorMarker ++ w ++ okAck nuls crs := by
    rw [errAck, List.append_assoc errorMarker, he]
    simp only [List.append_assoc]
  generalize f.statusBuffer ++ errorMarker ++ w = v at hv hb
  refine ⟨v, hv, ?_⟩
  obtain ⟨n, hn⟩ := length_okAck_pos v nuls crs
  have hplain := extractOks_okEnd okMatcher_okAckLen hv nuls crs n f
  have hnull := extractOks_okEnd okMatcher_nullOkLen hv nuls crs n f
  -- behind the `ok` passes no line is left
  have hrest (g : FlowInner) : extractErrors v.length 0 (g.withBuffer v) = (g.withBuffer v, []) ∧
      splitLines v.length (g.withBuffer v) = (g.withBuffer v, []) ∧
      extractOks (Search.leftmost nullOkLen) v.length (g.withBuffer v) = (g.withBuffer v, []) :=
    ⟨extractErrors_of_notMem hv _ _, splitLines_of_notMem hv _,
      extractOks_of_notMem okMatcher_nullOkLen hv _⟩
  have hplain' : findOkAck = Search.leftmost okAckLen := rfl
  have hnull' : findNullCorruptedOk = Search.leftmost nullOkLen := rfl
  by_cases hz : nuls = 0
  · subst hz
    rw [if_pos (show (0 == 0) = true from rfl)] at hplain
    simp only [parseExtracted, extractAcksFromBuffer, hb, withBuffer_statusBuffer, hn, hplain',
      hplain, hnull', acked, (hrest _).1, (hrest _).2.1, (hrest _).2.2, List.append_nil]
  · rw [if_neg (by simpa using hz)] at hplain
    rw [if_pos (by simpa using hz)] at hnull
    simp only [parseExtracted, extractAcksFromBuffer, hb, withBuffer_statusBuffer, hn, hplain',
      hplain, hnull', hnull, acked, (hrest _).1, (hrest _).2.1, List.append_nil, List.nil_append]

/-- **An error text that does not decode leaves no trace**: the line is cut out of the
buffer, and no command is freed for it. -/
theorem error_line_dropped {f : FlowInner} {text : Bytes} (hbuffer : LF ∉ f.statusBuffer)
    (hmark : ¬ errorMarker <:+: f.statusBuffer) (hLF : LF ∉ text) (hend : ¬ OkEnd text)
    (hutf : fromUtf8 (errAck text) = none) : f.parseExtracted (errAck text) = (f, []) := by
  have hz : LF ∉ f.statusBuffer ++ errorMarker ++ text := by
    simp only [List.mem_append, not_or]
    exact ⟨⟨hbuffer, by decide⟩, hLF⟩
  have hb : f.statusBuffer ++ errAck text = f.statusBuffer ++ errorMarker ++ text ++ [LF] := by
    rw [errAck]
    simp only [List.append_assoc]
  -- the `ok` passes find nothing
  have hoks {m : Bytes → Option ℕ} {P : ℕ → Bool} (hm : OkMatcher m P) (n : ℕ) :
      extractOks (Search.leftmost m) n (f.withBuffer (f.statusBuffer ++ errAck text))
        = (f.withBuffer (f.statusBuffer ++ errAck text), []) := by
    have hskip := extractOks_skip (hm.noMatchIn hz fun nuls crs _ he =>
      not_okEnd_errAck hend (okEnd_of_suffix he)) n [] f
    rw [extractOks_of_notMem hm (f := f.withBuffer []) List.not_mem_nil] at hskip
    rw [hb]
    simpa using hskip
  have hfind : findSubslice (f.statusBuffer ++ errAck text) errorMarker
      = some f.statusBuffer.length := by
    rw [findSubslice_errorMarker, errAck, List.append_assoc errorMarker,
      Search.leftmost_hit (noMarker_marker hmark _) (by simp [errorMarker, ascii])
        (markerLen_append _)]
    rfl
  have hidx : (errAck text).idxOf? LF = some (errorMarker ++ text).length := by
    rw [errAck, idxOf?_LF]
    rw [List.mem_append, not_or]
    exact ⟨by decide, hLF⟩
  have htake : List.take ((errorMarker ++ text).length + 1) (errAck text) = errAck text :=
    List.take_of_length_le (by simp [errAck, Nat.add_assoc])
  have hdrain : drain f.statusBuffer.length
      (f.statusBuffer.length + (errorMarker ++ text).length + 1)
      (f.statusBuffer ++ errAck text) = f.statusBuffer := by
    have h := drain_between f.statusBuffer (errAck text) []
    simpa [errAck, Nat.add_assoc] using h
  -- the error pass throws the line away
  have herr (n : ℕ) : extractErrors (n + 1) 0
      (f.withBuffer (f.statusBuffer ++ errAck text)) = (f, []) := by
    simp only [extractErrors, withBuffer_statusBuffer, List.drop_zero, hfind, Nat.zero_add,
      List.drop_left, hidx, htake, hutf, hdrain, withBuffer_withBuffer, withBuffer_self]
    exact extractErrors_of_notMem hbuffer n 0
  obtain ⟨n, hn⟩ : ∃ n, (f.statusBuffer ++ errAck text).length = n + 1 := by
    refine ⟨(f.statusBuffer ++ errorMarker ++ text).length, ?_⟩
    rw [hb, List.length_append]
    rfl
  have hplain' : findOkAck = Search.leftmost okAckLen := rfl
  have hnull' : findNullCorruptedOk = Search.leftmost nullOkLen := rfl
  simp only [parseExtracted, extractAcksFromBuffer, withBuffer_statusBuffer, hplain', hnull',
    hoks okMatcher_okAckLen, hoks okMatcher_nullOkLen, hn, herr, splitLines_of_notMem hbuffer,
    List.append_nil]

/-- The call that completes an error line whose text is not whole reports no error. -/
theorem error_line_lost {f : FlowInner} {text : Bytes} (hbuffer : LF ∉ f.statusBuffer)
    (hmark : ¬ errorMarker <:+: f.statusBuffer) (hLF : LF ∉ text) (htext : ¬ ErrText text) :
    textsOf .error ((f.parseExtracted (errAck text)).2.map Extracted.toResponse) = [] := by
  by_cases hend : OkEnd text
  · obtain ⟨v, -, hv⟩ := error_line_as_ok hbuffer hLF hend
    rw [hv, textsOf_ack (by decide), acked, ackText_acknowledgeAll]
    rfl
  · have hutf : fromUtf8 (errAck text) = none := by
      by_contra hsome
      exact htext ⟨hLF, hend, Option.isSome_iff_ne_none.mpr hsome⟩
    rw [error_line_dropped hbuffer hmark hLF hend hutf]
    rfl

/-! ### The condition -/

/-- Where some error text is not whole there is a first one. -/
theorem exists_first_error {ts : List Token} (h : ¬ ∀ text, .err text ∈ ts → ErrText text) :
    ∃ us text, us ++ [.err text] <+: ts ∧ (∀ t, .err t ∈ us → ErrText t) ∧ ¬ ErrText text := by
  induction ts with
  | nil => exact absurd (fun text ht => absurd ht List.not_mem_nil) h
  | cons t ts ih =>
    -- the head is not it: the first one stands in the tail
    have later (hhead : ∀ text, .err text = t → ErrText text) :
        ∃ us text, us ++ [.err text] <+: t :: ts ∧ (∀ u, .err u ∈ us → ErrText u) ∧
          ¬ ErrText text := by
      obtain ⟨us, text, hpre, hus, htext⟩ := ih fun hall => h fun text ht =>
        (List.mem_cons.mp ht).elim (hhead text) (hall text)
      refine ⟨t :: us, text, List.prefix_cons_inj t |>.mpr hpre, fun u hu => ?_, htext⟩
      exact (List.mem_cons.mp hu).elim (hhead u) (hus u)
    cases t with
    | byte b => exact later fun text ht => by cases ht
    | ok nuls crs => exact later fun text ht => by cases ht
    | err text =>
      by_cases htext : ErrText text
      · exact later fun u hu => by cases hu; exact htext
      · exact ⟨[], text, ⟨ts, rfl⟩, fun u hu => absurd hu List.not_mem_nil, htext⟩

theorem textsOf_append (k : GrblResponseType) (rs rs' : List GrblResponse) :
    textsOf k (rs ++ rs') = textsOf k rs ++ textsOf k rs' := by
  rw [textsOf, List.filter_append, List.map_append]
  rfl

/-- **Every error line is answered by one error and frees one command, at every point of
the stream and for every cutting, exactly when each error text decodes and none of them
ends in an `ok`.** -/
theorem errors_counted_iff (f : FlowInner) (ts : List Token) (hbuffer : LF ∉ f.statusBuffer)
    (hnoisy : Noisy f.statusBuffer ts) :
    (∀ us p cs, us <+: ts → LF ∉ p → cs.flatten = render us ++ p → ErrorsCounted f us cs) ↔
      ∀ text, .err text ∈ ts → ErrText text := by
  constructor
  · intro h
    by_contra hlost
    obtain ⟨us, text, hpre, hus, htext⟩ := exists_first_error hlost
    obtain ⟨vs, rfl⟩ := hpre
    have hleft : Noisy f.statusBuffer (us ++ [.err text]) := hnoisy.left
    have hclean : Clean f.statusBuffer us := hleft.left.clean hus
    have hLF : LF ∉ text := hleft.no_LF (List.mem_append_right us List.mem_cons_self)
    -- the stream up to the line in one chunk, the line in another
    obtain ⟨⟨hcount, -⟩, hcarry⟩ := @errorsCounted_of_clean _ us [] [render us] hbuffer hclean
      List.not_mem_nil (by rw [List.flatten_singleton, List.append_nil])
    obtain ⟨hboth, -⟩ := h (us ++ [.err text]) [] [render us, errAck text]
      (List.prefix_append _ vs) List.not_mem_nil
      (by simp [Token.render])
    have hbefore : (f.parseExtracted (render us)).1.statusBuffer = carry f.statusBuffer us :=
      hcarry rfl
    have hnone := @error_line_lost (f.parseExtracted (render us)).1 text
      (by rw [hbefore]; exact LF_notMem_carry us _ hbuffer)
      (by rw [hbefore]; exact (clean_append [] (by rwa [List.append_nil])).no_marker) hLF htext
    simp only [parseIncomingAll, parseIncoming, List.append_nil, textsOf_append,
      List.length_append] at hcount hboth
    rw [hnone, hcount, List.countP_append, List.countP_cons_of_pos rfl] at hboth
    simp at hboth
  · rintro herr us p cs ⟨vs, rfl⟩ hp hcs
    exact (errorsCounted_of_clean hbuffer (hnoisy.clean herr).left hp hcs).1

/-- A command is waiting and a byte of the answer is damaged on the wire: no error is
reported and the command stays in the accounting. -/
theorem damaged_error_keeps_command :
    ¬ ∀ (f : FlowInner) (text : Bytes) (cs : List Bytes), f.statusBuffer = [] → f.pending ≠ [] →
      LF ∉ text → cs.flatten = errAck text → ErrorsCounted f [.err text] cs := by
  intro h
  have hcounted := h twoPending [0xff] [errAck [0xff]] rfl (by decide) (by decide) rfl
  exact absurd hcounted.2 (by decide)

/-- The lines `error:8` and `error:9` with an `ok` between them, cut inside both. -/
theorem errors_counted_iff_twoPending :
    ErrorsCounted twoPending [.err (ascii "8"), .ok 0 1, .err (ascii "9")]
      [ascii "err", ascii "or:8\nok", ascii "\r\nerror", ascii ":9\n"] := by
  have hwhole (text : Bytes) (hLF : LF ∉ text) (ho : 'o'.toUInt8 ∉ text)
      (hutf : (fromUtf8 (errAck text)).isSome = true) : ErrText text :=
    ⟨hLF, not_okEnd_of_notMem ho, hutf⟩
  have hnoisy : Noisy [] [.err (ascii "8"), .ok 0 1, .err (ascii "9")] :=
    ⟨by decide, by decide, show ¬ errorMarker <:+: [] by decide⟩
  refine (errors_counted_iff twoPending _ (by decide) hnoisy).mpr ?_ _ [] _
    (List.prefix_refl _) (by decide) (by decide)
  intro text ht
  simp only [List.mem_cons, Token.err.injEq, reduceCtorEq, List.not_mem_nil, or_false,
    false_or] at ht
  rcases ht with rfl | rfl
  · exact hwhole _ (by decide) (by decide) (by decide)
  · exact hwhole _ (by decide) (by decide) (by decide)

end Raydriver
