import Raydriver.Grbl.Accounting

/-!
# What the flow control conserves

The loops of the parser are while loops that rewrite the buffer they scan.  Here they
are stated as such, without a bound: a derivation of `OkLoop`, `ErrorLoop` or `LineLoop`
is a run of the loop that has come to its end.  The parser computes such runs, so its
loops terminate on all bytes; behind them the buffer has no newline.

The accounting is conserved: what a call frees is what it takes out of the queue, and
the queue loses as many entries as the call reports acknowledgements, oldest first.

## Main definitions

* `OkLoop`, `ErrorLoop`, `LineLoop`, `Parses` — the loops of `parse_incoming`.
* `FlowOp`, `after` — the operations of the flow control, and what they lead to.
* `Balanced f` — the bytes in flight are those of the pending commands.

## Main results

* `parseExtracted_parses` — the parser computes a run of the loops.
* `Trace.popped` — the entry popped for each acknowledgement.
* `flow_control_conserves` — **the invariant of all operations, and ack conservation**.
-/

namespace Raydriver

open FlowInner

/-! ### The loops of the parser -/

/-- The loops that cut `ok`s out of the buffer. -/
inductive OkLoop (find : Bytes → Option (ℕ × ℕ)) : FlowInner → FlowInner → List Extracted → Prop
  | stop {f : FlowInner} (h : find f.statusBuffer = none) : OkLoop find f f []
  | step {f g : FlowInner} {es : List Extracted} {start stop : ℕ}
      (h : find f.statusBuffer = some (start, stop))
      (hloop : OkLoop find
        ((f.withBuffer (drain start stop f.statusBuffer)).acknowledge .ok "ok".toList).1 g es) :
      OkLoop find f g
        (((f.withBuffer (drain start stop f.statusBuffer)).acknowledge .ok "ok".toList).2 :: es)

/-- The loop that cuts `error:` lines out of the buffer. -/
inductive ErrorLoop : ℕ → FlowInner → FlowInner → List Extracted → Prop
  | stop {searchFrom : ℕ} {f : FlowInner}
      (h : findSubslice (f.statusBuffer.drop searchFrom) errorMarker = none) :
      ErrorLoop searchFrom f f []
  /-- The line is not complete. -/
  | cut {searchFrom rel : ℕ} {f : FlowInner}
      (h : findSubslice (f.statusBuffer.drop searchFrom) errorMarker = some rel)
      (hend : (f.statusBuffer.drop (searchFrom + rel)).idxOf? LF = none) :
      ErrorLoop searchFrom f f []
  /-- The line is not valid UTF-8. -/
  | skip {searchFrom rel endRel : ℕ} {f g : FlowInner} {es : List Extracted}
      (h : findSubslice (f.statusBuffer.drop searchFrom) errorMarker = some rel)
      (hend : (f.statusBuffer.drop (searchFrom + rel)).idxOf? LF = some endRel)
      (htext : fromUtf8 ((f.statusBuffer.drop (searchFrom + rel)).take (endRel + 1)) = none)
      (hloop : ErrorLoop searchFrom (f.withBuffer (drain (searchFrom + rel)
        (searchFrom + rel + endRel + 1) f.statusBuffer)) g es) :
      ErrorLoop searchFrom f g es
  | step {searchFrom rel endRel : ℕ} {f g : FlowInner} {es : List Extracted} {error : Text}
      (h : findSubslice (f.statusBuffer.drop searchFrom) errorMarker = some rel)
      (hend : (f.statusBuffer.drop (searchFrom + rel)).idxOf? LF = some endRel)
      (htext : fromUtf8 ((f.statusBuffer.drop (searchFrom + rel)).take (endRel + 1)) = some error)
      (hloop : ErrorLoop (searchFrom + rel) ((f.withBuffer (drain (searchFrom + rel)
        (searchFrom + rel + endRel + 1) f.statusBuffer)).acknowledge .error (trim error)).1 g es) :
      ErrorLoop searchFrom f g (((f.withBuffer (drain (searchFrom + rel)
        (searchFrom + rel + endRel + 1) f.statusBuffer)).acknowledge .error (trim error)).2 :: es)

/-- The loop over the newline-terminated messages. -/
inductive LineLoop : FlowInner → FlowInner → List Extracted → Prop
  | stop {f : FlowInner} (h : f.statusBuffer.idxOf? LF = none) : LineLoop f f []
  /-- The message is not valid UTF-8. -/
  | skip {f g : FlowInner} {es : List Extracted} {nl : ℕ}
      (h : f.statusBuffer.idxOf? LF = some nl)
      (htext : fromUtf8 (f.statusBuffer.take (nl + 1)) = none)
      (hloop : LineLoop (f.withBuffer (f.statusBuffer.drop (nl + 1))) g es) : LineLoop f g es
  | step {f g : FlowInner} {es : List Extracted} {nl : ℕ} {message : Text}
      (h : f.statusBuffer.idxOf? LF = some nl)
      (htext : fromUtf8 (f.statusBuffer.take (nl + 1)) = some message)
      (hloop : LineLoop (handleMessage (lines (trim message))
        (f.withBuffer (f.statusBuffer.drop (nl + 1)))).1 g es) :
      LineLoop f g ((handleMessage (lines (trim message))
        (f.withBuffer (f.statusBuffer.drop (nl + 1)))).2 ++ es)

/-- A run of `parse_incoming`: its four loops, one after the other. -/
inductive Parses (data : Bytes) (f : FlowInner) : FlowInner → List Extracted → Prop
  | run {f₁ f₂ f₃ g : FlowInner} {oks nuls errs rest : List Extracted}
      (hok : OkLoop findOkAck (f.withBuffer (f.statusBuffer ++ data)) f₁ oks)
      (hnul : OkLoop findNullCorruptedOk f₁ f₂ nuls) (herr : ErrorLoop 0 f₂ f₃ errs)
      (hline : LineLoop f₃ g rest) : Parses data f g (oks ++ nuls ++ errs ++ rest)

section Loops

theorem length_drain {start stop : ℕ} {buf : Bytes} (h : start < stop ∧ stop ≤ buf.length) :
    (drain start stop buf).length < buf.length := by
  unfold drain
  rw [List.length_append, List.length_take, List.length_drop]
  omega

theorem okAckLen_bounds (l : Bytes) (n : ℕ) (h : okAckLen l = some n) : 0 < n ∧ n ≤ l.length := by
  unfold okAckLen at h
  split at h
  · dsimp only at h
    split_ifs at h with hm
    cases h
    have hlt := (List.getElem?_eq_some_iff.mp hm.2.2).1
    refine ⟨by omega, ?_⟩
    simp only [List.length_cons]
    omega
  · cases h

theorem nullOkLen_bounds (l : Bytes) (n : ℕ) (h : nullOkLen l = some n) :
    0 < n ∧ n ≤ l.length := by
  unfold nullOkLen at h
  split at h
  · dsimp only at h
    split_ifs at h with hm
    cases h
    have hlt := (List.getElem?_eq_some_iff.mp hm.2.2.2).1
    rw [List.length_drop] at hlt
    refine ⟨by omega, ?_⟩
    simp only [List.length_cons]
    omega
  · cases h

@[simp] theorem findOkAck_nil : findOkAck [] = none := rfl

@[simp] theorem findNullCorruptedOk_nil : findNullCorruptedOk [] = none := rfl

/-- Every iteration drains the buffer, so its length bounds their number. -/
theorem extractOks_loop {find : Bytes → Option (ℕ × ℕ)} (hnil : find [] = none)
    (hfind : ∀ buf start stop, find buf = some (start, stop) → start < stop ∧ stop ≤ buf.length) :
    ∀ (n : ℕ) (f : FlowInner), f.statusBuffer.length ≤ n →
      OkLoop find f (extractOks find n f).1 (extractOks find n f).2 := by
  intro n
  induction n with
  | zero =>
    intro f hn
    refine .stop ?_
    rw [List.length_eq_zero_iff.mp (Nat.le_zero.mp hn)]
    exact hnil
  | succ n ih =>
    intro f hn
    rw [extractOks]
    split
    · rename_i h
      exact .stop h
    · rename_i start stop h
      refine .step h (ih _ ?_)
      have hlt := length_drain (hfind _ _ _ h)
      rw [acknowledge_statusBuffer, withBuffer_statusBuffer]
      omega

/-- The end of a line found in the buffer. -/
theorem idxOf?_bound {buf : Bytes} {n : ℕ} (h : buf.idxOf? LF = some n) : n < buf.length := by
  obtain ⟨hlt, -⟩ := List.idxOf?_eq_some_iff.mp h
  exact hlt

theorem extractErrors_loop : ∀ (n searchFrom : ℕ) (f : FlowInner), f.statusBuffer.length ≤ n →
    ErrorLoop searchFrom f (extractErrors n searchFrom f).1 (extractErrors n searchFrom f).2 := by
  intro n
  induction n with
  | zero =>
    intro searchFrom f hn
    refine .stop ?_
    rw [List.length_eq_zero_iff.mp (Nat.le_zero.mp hn), List.drop_nil]
    rfl
  | succ n ih =>
    intro searchFrom f hn
    -- a cut line shortens the buffer, which bounds the passes
    have hshort : ∀ {rel endRel : ℕ},
        (f.statusBuffer.drop (searchFrom + rel)).idxOf? LF = some endRel →
          (drain (searchFrom + rel) (searchFrom + rel + endRel + 1) f.statusBuffer).length ≤ n := by
      intro rel endRel h
      have hlt := idxOf?_bound h
      rw [List.length_drop] at hlt
      have hdrain := @length_drain (searchFrom + rel) (searchFrom + rel + endRel + 1)
        f.statusBuffer (by omega)
      omega
    rw [extractErrors]
    split
    · rename_i h
      exact .stop h
    · rename_i rel h
      dsimp only
      split
      · rename_i hend
        exact .cut h hend
      · rename_i endRel hend
        split
        · rename_i htext
          exact .skip h hend htext (ih _ _ (hshort hend))
        · rename_i error htext
          refine .step h hend htext (ih _ _ ?_)
          rw [acknowledge_statusBuffer, withBuffer_statusBuffer]
          exact hshort hend

@[simp] theorem handleMessage_statusBuffer : ∀ (ls : List Text) (f : FlowInner),
    (handleMessage ls f).1.statusBuffer = f.statusBuffer := by
  intro ls
  induction ls with
  | nil => exact fun f => rfl
  | cons l ls ih =>
    intro f
    simp only [handleMessage]
    split_ifs
    · exact ih f
    · exact (ih _).trans (acknowledge_statusBuffer _ _ _)
    · exact (ih _).trans (acknowledge_statusBuffer _ _ _)
    · exact ih f

theorem splitLines_loop : ∀ (n : ℕ) (f : FlowInner), f.statusBuffer.length ≤ n →
    LineLoop f (splitLines n f).1 (splitLines n f).2 := by
  intro n
  induction n with
  | zero =>
    intro f hn
    refine .stop ?_
    rw [List.length_eq_zero_iff.mp (Nat.le_zero.mp hn)]
    rfl
  | succ n ih =>
    intro f hn
    rw [splitLines]
    split
    · rename_i h
      exact .stop h
    · rename_i nl h
      have hshort : (f.statusBuffer.drop (nl + 1)).length ≤ n := by
        have hlt := idxOf?_bound h
        rw [List.length_drop]
        omega
      dsimp only
      split
      · rename_i htext
        exact .skip h htext (ih _ hshort)
      · rename_i message htext
        refine .step h htext (ih _ ?_)
        rw [handleMessage_statusBuffer]
        exact hshort

/-- **The loops of the parser terminate**: the parser computes a run of them. -/
theorem parseExtracted_parses (data : Bytes) (f : FlowInner) :
    Parses data f (f.parseExtracted data).1 (f.parseExtracted data).2 := by
  have hok : ∀ buf start stop, findOkAck buf = some (start, stop) →
      start < stop ∧ stop ≤ buf.length :=
    fun _ _ _ h => Search.leftmost_bounds okAckLen_bounds h
  have hnul : ∀ buf start stop, findNullCorruptedOk buf = some (start, stop) →
      start < stop ∧ stop ≤ buf.length :=
    fun _ _ _ h => Search.leftmost_bounds nullOkLen_bounds h
  simp only [FlowInner.parseExtracted, FlowInner.extractAcksFromBuffer]
  exact .run (extractOks_loop rfl hok _ _ (Nat.le_refl _))
    (extractOks_loop rfl hnul _ _ (Nat.le_refl _)) (extractErrors_loop _ _ _ (Nat.le_refl _))
    (splitLines_loop _ _ (Nat.le_refl _))

/-- Behind the loops the buffer has no newline. -/
theorem LineLoop.noNewline {f g : FlowInner} {es : List Extracted} (h : LineLoop f g es) :
    LF ∉ g.statusBuffer := by
  induction h with
  | stop h => exact List.idxOf?_eq_none_iff.mp h
  | skip _ _ _ ih => exact ih
  | step _ _ _ ih => exact ih

theorem Parses.noNewline {data : Bytes} {f g : FlowInner} {es : List Extracted}
    (h : Parses data f g es) : LF ∉ g.statusBuffer := by
  cases h with
  | run _ _ _ hline => exact hline.noNewline

end Loops

/-! ### The entries popped -/

/-- The entry popped for an extracted item. -/
def Extracted.popped : Extracted → Option PendingCommand
  | .ack _ _ p => p
  | .line _ => none

/-- **The oldest entries are popped in order**, one for each acknowledgement: the `j`-th of
them gets the `j`-th entry that was pending when the call began. -/
theorem Trace.popped {f g : FlowInner} {es : List Extracted} (h : Trace f es g) :
    (es.filter Extracted.isAck).map Extracted.popped =
      (List.range (ackCount es)).map fun j => f.pending[j]? := by
  induction h with
  | refl f => rfl
  | buffer b _ ih => exact ih
  | line t _ ih =>
    rw [ackCount_line, ← ih]
    rfl
  | @ack f g es r hr t _ ih =>
    obtain ⟨hpending, -, -⟩ := acknowledge_flow r t f
    have hhead : (f.acknowledge r t).2.popped = f.pending[0]? := by
      rw [snd_acknowledge]
      exact List.head?_eq_getElem?
    rw [snd_acknowledge] at hhead ⊢
    rw [ackCount_ack, List.range_add, List.map_append, List.map_map,
      List.filter_cons_of_pos (by rfl), List.map_cons, ih, hhead]
    have hshift : ∀ j, (f.acknowledge r t).1.pending[j]? = f.pending[1 + j]? := by
      intro j
      rw [hpending, List.getElem?_drop]
    simp [hshift, Function.comp_def]

/-- The bytes accounted for are those of the pending commands. -/
def FlowInner.Balanced (f : FlowInner) : Prop := f.rxCount = (lengths f.pending).sum

/-- What a call frees is what it pops: no subtraction is cut off at zero. -/
theorem Accounted.conserved {f g : FlowInner} {es : List Extracted} (h : Accounted f es g)
    (hf : f.Balanced) :
    g.rxCount + (lengths (f.pending.take (ackCount es))).sum = f.rxCount ∧ g.Balanced := by
  have hsplit : (lengths f.pending).sum = (lengths (f.pending.take (ackCount es))).sum +
      (lengths (f.pending.drop (ackCount es))).sum := by
    rw [lengths, lengths, lengths, ← List.sum_append, ← List.map_append, List.take_append_drop]
  have hcount := h.rxCount
  have hpending := congrArg (fun ps => (lengths ps).sum) h.pending
  unfold FlowInner.Balanced at hf ⊢
  constructor <;> omega

/-! ### All operations -/

/-- The operations of a `FlowControl`. -/
inductive FlowOp where
  | trackCommand (length : ℕ) (opIndex : Option ℤ) (command : Text)
  | parseIncoming (data : Bytes)
  | flushNotifications
  | setRxBufferSize (size : ℕ)
  | resetFlowControl
  | reset
  deriving DecidableEq, Repr

/-- The state behind an operation. -/
def FlowOp.apply (f : FlowInner) : FlowOp → FlowInner
  | .trackCommand length opIndex command => f.trackCommand length opIndex command
  | .parseIncoming data => (f.parseIncoming data).1
  | .flushNotifications => f.flushNotifications.1
  | .setRxBufferSize size => f.setRxBufferSize size
  | .resetFlowControl => f.resetFlowControl
  | .reset => f.reset

/-- The state of a new `FlowControl` behind a list of operations. -/
def after (ops : List FlowOp) : FlowInner := ops.foldl FlowOp.apply {}

/-- The representation invariant: the count is that of the pending commands, and the buffer
holds no complete line. -/
structure FlowInner.Wf (f : FlowInner) : Prop where
  balanced : f.Balanced
  noNewline : LF ∉ f.statusBuffer

/-- **Every operation keeps the invariant.** -/
theorem FlowInner.Wf.apply {f : FlowInner} (h : f.Wf) (op : FlowOp) : (op.apply f).Wf := by
  cases op with
  | trackCommand length opIndex command =>
    refine ⟨?_, h.noNewline⟩
    have hsum := h.balanced
    unfold FlowInner.Balanced at hsum ⊢
    show f.rxCount + length = (lengths (f.pending ++ [_])).sum
    rw [hsum]
    simp [lengths]
  | parseIncoming data =>
    show (f.parseIncoming data).1.Wf
    rw [parseIncoming_eq]
    exact ⟨((parseExtracted_accounted data f).conserved h.balanced).2,
      (parseExtracted_parses data f).noNewline⟩
  | flushNotifications => exact ⟨h.balanced, h.noNewline⟩
  | setRxBufferSize size =>
    have hbooks := SameBooks.setRxBufferSize size f
    show (f.setRxBufferSize size).Wf
    refine ⟨?_, by rw [hbooks.statusBuffer]; exact h.noNewline⟩
    unfold FlowInner.Balanced
    rw [hbooks.rxCount, hbooks.pending]
    exact h.balanced
  | resetFlowControl => exact ⟨rfl, h.noNewline⟩
  | reset => exact ⟨rfl, List.not_mem_nil⟩

/-- The invariant behind any list of operations. -/
theorem wf_after (ops : List FlowOp) : (after ops).Wf := by
  have hfold : ∀ (ops : List FlowOp) (f : FlowInner), f.Wf → (ops.foldl FlowOp.apply f).Wf := by
    intro ops
    induction ops with
    | nil => exact fun f h => h
    | cons op ops ih => exact fun f h => ih _ (h.apply op)
  exact hfold ops {} ⟨rfl, List.not_mem_nil⟩

/-- An acknowledgement, as opposed to a line. -/
def GrblResponse.isAck (r : GrblResponse) : Bool := r.rtype != .line

/-- The acknowledgements a call returns are those it extracted. -/
theorem filter_toResponse {es : List Extracted}
    (hk : ∀ r t p, Extracted.ack r t p ∈ es → r ≠ .line) :
    (es.map Extracted.toResponse).filter GrblResponse.isAck =
      (es.filter Extracted.isAck).map Extracted.toResponse := by
  rw [List.filter_map]
  congr 1
  refine List.filter_congr fun e he => ?_
  cases e with
  | ack r t p => cases r <;> first | rfl | exact absurd rfl (hk _ t p he)
  | line t => rfl

/-- **The representation invariant, and ack conservation.**  Behind any operations on a new
`FlowControl` the bytes accounted for are those of the pending commands, and the buffer
has no newline.  On any further bytes the loops of `parse_incoming` terminate, and leave no
newline behind; if the call returns `n` acknowledgements then the first `n` entries are
gone, the bytes freed are exactly theirs, and the `j`-th acknowledgement is the one that
popped the `j`-th entry: it carries that entry if it is an `ok`.  A subtraction cut off at
zero would have left more bytes accounted for than that. -/
theorem flow_control_conserves (ops : List FlowOp) (data : Bytes) :
    let f := after ops
    let g := (f.parseIncoming data).1
    let es := (f.parseExtracted data).2
    let acks := (f.parseIncoming data).2.filter GrblResponse.isAck
    f.rxCount = (lengths f.pending).sum ∧ LF ∉ f.statusBuffer ∧
      Parses data f g es ∧ (f.parseIncoming data).2 = es.map Extracted.toResponse ∧
      LF ∉ g.statusBuffer ∧
      g.pending = f.pending.drop acks.length ∧
      f.pending.length - g.pending.length = min acks.length f.pending.length ∧
      g.rxCount + (lengths (f.pending.take acks.length)).sum = f.rxCount ∧
      (es.filter Extracted.isAck).map Extracted.toResponse = acks ∧
      (es.filter Extracted.isAck).map Extracted.popped =
        (List.range acks.length).map (fun j => f.pending[j]?) ∧
      ∀ (j : ℕ) (r : GrblResponse), acks[j]? = some r → r.rtype = .ok →
        r.pending = f.pending[j]? := by
  intro f g es acks
  have hwf := wf_after ops
  have hcall : f.parseIncoming data = ((f.parseExtracted data).1, es.map Extracted.toResponse) :=
    parseIncoming_eq data f
  have hg : g = (f.parseExtracted data).1 := congrArg Prod.fst hcall
  have hresponses : (f.parseIncoming data).2 = es.map Extracted.toResponse :=
    congrArg Prod.snd hcall
  have hparses : Parses data f g es := by rw [hg]; exact parseExtracted_parses data f
  -- every statement is read off the trace of the four passes
  have htrace : Trace f es g := by rw [hg]; exact parseExtracted_trace data f
  have hacc := htrace.accounted
  have hacks : acks = (es.filter Extracted.isAck).map Extracted.toResponse :=
    (congrArg (List.filter GrblResponse.isAck) hresponses).trans (filter_toResponse hacc.kind)
  have hlen : acks.length = ackCount es := by
    rw [hacks, List.length_map, ackCount, List.countP_eq_length_filter]
  have hpopped := htrace.popped
  rw [← hlen] at hpopped
  have hpending := hacc.pending
  obtain ⟨hcons, -⟩ := hacc.conserved hwf.balanced
  rw [← hlen] at hpending hcons
  refine ⟨hwf.balanced, hwf.noNewline, hparses, hresponses, hparses.noNewline, hpending, ?_, hcons,
    hacks.symm, hpopped, fun j r hr hok => ?_⟩
  · rw [hpending, List.length_drop]
    omega
  -- the `j`-th acknowledgement popped the `j`-th entry, and an `ok` carries it
  · have hj : j < acks.length := (List.getElem?_eq_some_iff.mp hr).1
    rw [hacks, List.getElem?_map, Option.map_eq_some_iff] at hr
    obtain ⟨e, he, rfl⟩ := hr
    have hp := congrArg (fun l => l[j]?) hpopped
    simp only [List.getElem?_map, he, List.getElem?_range hj, Option.map_some,
      Option.some.injEq] at hp
    rw [← hp]
    cases e with
    | ack r t p => cases r <;> first | rfl | cases hok
    | line t => cases hok

end Raydriver
