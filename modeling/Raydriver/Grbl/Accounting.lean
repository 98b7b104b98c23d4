import Raydriver.Grbl.Chunks
import Raydriver.Grbl.Frames

/-!
# The accounting of one chunk

Whatever bytes arrive, a call of `parse_incoming` pops one pending command for each
acknowledgement it reports, oldest first, and frees their bytes.  For the session this
says what a chunk does to the flow control, to the owners of its entries and to the
requests.

## Main definitions

* `ackCount es` — the acknowledgements among what a call extracts.
* `Trace f es g` — the course of a call.
* `Accounted f es g` — `g` is `f` with one command popped for each acknowledgement in `es`.

## Main results

* `parseExtracted_accounted` — **one call pops one command for each acknowledgement**.
* `handleRx_flow` — what a chunk does to the flow control of the session.
-/

namespace Raydriver

open FlowInner

/-- The acknowledgements among the extracted items. -/
def ackCount (es : List Extracted) : ℕ := es.countP Extracted.isAck

@[simp] theorem ackCount_nil : ackCount [] = 0 := rfl

@[simp] theorem ackCount_append (es es' : List Extracted) :
    ackCount (es ++ es') = ackCount es + ackCount es' := List.countP_append

@[simp] theorem ackCount_ack (r : GrblResponseType) (t : Text) (p : Option PendingCommand)
    (es : List Extracted) : ackCount (.ack r t p :: es) = 1 + ackCount es := by
  unfold ackCount
  rw [List.countP_cons, Nat.add_comm]
  rfl

@[simp] theorem ackCount_line (t : Text) (es : List Extracted) :
    ackCount (.line t :: es) = ackCount es := by
  unfold ackCount
  rw [List.countP_cons]
  rfl

theorem ackCount_eq_length (es : List Extracted) :
    ackCount es = (es.filterMap Extracted.ackText).length := by
  induction es with
  | nil => rfl
  | cons e es ih =>
    cases e with
    | ack r t p => simp [Extracted.ackText, ih, Nat.add_comm]
    | line t => simp [Extracted.ackText, ih, List.filterMap_cons]

/-- The lengths of commands. -/
def lengths (ps : List PendingCommand) : List ℕ := ps.map PendingCommand.length

/-! ### The course of a call -/

/-- The course of a call: it rewrites its buffer, pops entries for acknowledgements and
reports lines. -/
inductive Trace : FlowInner → List Extracted → FlowInner → Prop
  | refl (f : FlowInner) : Trace f [] f
  | buffer {f g : FlowInner} {es : List Extracted} (b : Bytes) (h : Trace (f.withBuffer b) es g) :
      Trace f es g
  | ack {f g : FlowInner} {es : List Extracted} {r : GrblResponseType} (hr : r ≠ .line) (t : Text)
      (h : Trace (f.acknowledge r t).1 es g) : Trace f ((f.acknowledge r t).2 :: es) g
  | line {f g : FlowInner} {es : List Extracted} (t : Text) (h : Trace f es g) :
      Trace f (.line t :: es) g

theorem Trace.trans {f g h : FlowInner} {es es' : List Extracted} (hfg : Trace f es g)
    (hgh : Trace g es' h) : Trace f (es ++ es') h := by
  induction hfg with
  | refl => exact hgh
  | buffer b _ ih => exact .buffer b (ih hgh)
  | ack hr t _ ih => exact .ack hr t (ih hgh)
  | line t _ ih => exact .line t (ih hgh)

theorem extractOks_trace (find : Bytes → Option (ℕ × ℕ)) : ∀ (n : ℕ) (f : FlowInner),
    Trace f (extractOks find n f).2 (extractOks find n f).1 := by
  intro n
  induction n with
  | zero => exact fun f => .refl f
  | succ n ih =>
    intro f
    simp only [extractOks]
    split
    · exact .refl f
    · exact .buffer _ (.ack (by decide) _ (ih _))

theorem extractErrors_trace : ∀ (n start : ℕ) (f : FlowInner),
    Trace f (extractErrors n start f).2 (extractErrors n start f).1 := by
  intro n
  induction n with
  | zero => exact fun start f => .refl f
  | succ n ih =>
    intro start f
    simp only [extractErrors]
    split
    · exact .refl f
    · split
      · exact .refl f
      · split
        · exact .buffer _ (ih _ _)
        · exact .buffer _ (.ack (by decide) _ (ih _ _))

theorem handleMessage_trace : ∀ (ls : List Text) (f : FlowInner),
    Trace f (handleMessage ls f).2 (handleMessage ls f).1 := by
  intro ls
  induction ls with
  | nil => exact fun f => .refl f
  | cons l ls ih =>
    intro f
    simp only [handleMessage]
    split_ifs
    · exact ih f
    · exact .ack (by decide) _ (ih _)
    · exact .ack (by decide) _ (ih _)
    · exact .line _ (ih f)

theorem splitLines_trace : ∀ (n : ℕ) (f : FlowInner),
    Trace f (splitLines n f).2 (splitLines n f).1 := by
  intro n
  induction n with
  | zero => exact fun f => .refl f
  | succ n ih =>
    intro f
    simp only [splitLines]
    split
    · exact .refl f
    · split
      · exact .buffer _ (ih _)
      · exact .buffer _ ((handleMessage_trace _ _).trans (ih _))

theorem parseExtracted_trace (data : Bytes) (f : FlowInner) :
    Trace f (f.parseExtracted data).2 (f.parseExtracted data).1 := by
  simp only [parseExtracted, extractAcksFromBuffer]
  exact .buffer _ ((((extractOks_trace findOkAck _ _).trans
    (extractOks_trace findNullCorruptedOk _ _)).trans (extractErrors_trace _ _ _)).trans
    (splitLines_trace _ _))

/-- The responses of a chunk are made of what was extracted. -/
theorem parseIncoming_eq (data : Bytes) (f : FlowInner) : f.parseIncoming data =
    ((f.parseExtracted data).1, (f.parseExtracted data).2.map Extracted.toResponse) := by
  unfold parseIncoming
  generalize f.parseExtracted data = x
  rfl

/-! ### What a call takes from the accounting -/

/-- For each acknowledgement extracted the oldest command is popped and its bytes are
freed. -/
structure Accounted (f : FlowInner) (es : List Extracted) (g : FlowInner) : Prop where
  pending : g.pending = f.pending.drop (ackCount es)
  rxCount : g.rxCount = f.rxCount - (lengths (f.pending.take (ackCount es))).sum
  rxSize : g.rxSize = f.rxSize
  kind : ∀ r t p, Extracted.ack r t p ∈ es → r ≠ .line

/-- The flow control behind one acknowledgement. -/
theorem acknowledge_flow (r : GrblResponseType) (t : Text) (f : FlowInner) :
    (f.acknowledge r t).1.pending = f.pending.drop 1 ∧
      (f.acknowledge r t).1.rxCount = f.rxCount - (lengths (f.pending.take 1)).sum ∧
      (f.acknowledge r t).1.rxSize = f.rxSize := by
  obtain ⟨_, _, _, pending, _, _⟩ := f
  cases pending with
  | nil => exact ⟨rfl, rfl, rfl⟩
  | cons p ps => exact ⟨rfl, by simp [FlowInner.acknowledge, ackOkLocked, lengths], rfl⟩

/-- **In the course of a call one command is popped for each acknowledgement.** -/
theorem Trace.accounted {f g : FlowInner} {es : List Extracted} (h : Trace f es g) :
    Accounted f es g := by
  induction h with
  | refl f => exact ⟨rfl, rfl, rfl, fun _ _ _ he => absurd he List.not_mem_nil⟩
  | buffer b _ ih => exact ⟨ih.pending, ih.rxCount, ih.rxSize, ih.kind⟩
  | line t _ ih =>
    refine ⟨by rw [ih.pending, ackCount_line], by rw [ih.rxCount, ackCount_line], ih.rxSize,
      fun r t' p he => ?_⟩
    rcases List.mem_cons.mp he with he | he
    · cases he
    · exact ih.kind r t' p he
  | @ack f g es r hr t _ ih =>
    obtain ⟨hpending, hcount, hsize⟩ := acknowledge_flow r t f
    rw [snd_acknowledge]
    refine ⟨?_, ?_, ih.rxSize.trans hsize, fun r' t' p he => ?_⟩
    · rw [ih.pending, hpending, List.drop_drop, ackCount_ack]
    · rw [ih.rxCount, hcount, hpending, ackCount_ack, List.take_add, lengths, lengths, lengths,
        List.map_append, List.sum_append]
      omega
    · rcases List.mem_cons.mp he with he | he
      · cases he
        exact hr
      · exact ih.kind r' t' p he

/-- **One call pops one command for each acknowledgement it reports.** -/
theorem parseExtracted_accounted (data : Bytes) (f : FlowInner) :
    Accounted f (f.parseExtracted data).2 (f.parseExtracted data).1 :=
  (parseExtracted_trace data f).accounted

/-! ### The session -/

/-- Two states of the flow control that differ in the RX size and the flags at most. -/
structure SameBooks (f g : FlowInner) : Prop where
  pending : g.pending = f.pending
  rxCount : g.rxCount = f.rxCount
  statusBuffer : g.statusBuffer = f.statusBuffer

namespace SameBooks

variable {f g h : FlowInner}

theorem refl (f : FlowInner) : SameBooks f f := ⟨rfl, rfl, rfl⟩

theorem trans (hfg : SameBooks f g) (hgh : SameBooks g h) : SameBooks f h :=
  ⟨hgh.pending.trans hfg.pending, hgh.rxCount.trans hfg.rxCount,
    hgh.statusBuffer.trans hfg.statusBuffer⟩

theorem setRxBufferSize (size : ℕ) (f : FlowInner) : SameBooks f (f.setRxBufferSize size) := by
  unfold FlowInner.setRxBufferSize
  split_ifs <;> exact ⟨rfl, rfl, rfl⟩

end SameBooks

theorem handleLine_books (line : Text) (c : Core) :
    SameBooks c.flow (c.handleLine line).flow ∧ (c.handleLine line).owners = c.owners := by
  unfold Core.handleLine
  split_ifs
  · exact ⟨.refl _, rfl⟩
  · refine ⟨?_, rfl⟩
    show SameBooks c.flow (Core.detectRxBufferSize _ _).flow
    unfold Core.detectRxBufferSize
    dsimp only
    split
    · split_ifs
      · exact .setRxBufferSize _ _
      · exact .refl _
    · exact .refl _
  · dsimp only
    split
    · exact ⟨.refl _, rfl⟩
    · refine ⟨?_, rfl⟩
      unfold Core.applyOptInfo
      dsimp only
      split
      · split_ifs
        · exact .setRxBufferSize _ _
        · exact .refl _
      · exact .refl _
  · dsimp only
    split <;> exact ⟨.refl _, rfl⟩

theorem handleResponse_books (c : Core) (r : GrblResponse) :
    SameBooks c.flow (c.handleResponse r).flow ∧ (c.handleResponse r).owners = c.owners := by
  unfold Core.handleResponse
  split
  · unfold Core.handleOk
    dsimp only
    split <;> exact ⟨.refl _, rfl⟩
  · exact ⟨.refl _, rfl⟩
  · exact handleLine_books r.text c

theorem foldl_handleResponse_books (rs : List GrblResponse) : ∀ c : Core,
    SameBooks c.flow (rs.foldl Core.handleResponse c).flow ∧
      (rs.foldl Core.handleResponse c).owners = c.owners := by
  induction rs with
  | nil => exact fun c => ⟨.refl _, rfl⟩
  | cons r rs ih =>
    intro c
    have h := handleResponse_books c r
    exact ⟨h.1.trans (ih _).1, (ih _).2.trans h.2⟩

/-- The acknowledgements of a call are told from its lines by their kind. -/
theorem length_filter_toResponse {es : List Extracted}
    (hk : ∀ r t p, Extracted.ack r t p ∈ es → r ≠ .line) :
    ((es.map Extracted.toResponse).filter fun r => !(r.rtype == .line)).length = ackCount es := by
  induction es with
  | nil => rfl
  | cons e es ih =>
    have htail := ih fun r t p he => hk r t p (List.mem_cons_of_mem e he)
    cases e with
    | ack r t p =>
      have hr := hk r t p List.mem_cons_self
      rw [List.map_cons, List.filter_cons, ackCount_ack]
      cases r with
      | line => exact absurd rfl hr
      | ok => simpa [Extracted.toResponse, Nat.add_comm] using htail
      | error => simpa [Extracted.toResponse, Nat.add_comm] using htail
    | line t => simpa [Extracted.toResponse] using htail

/-- **What a chunk does to the flow control of the session**: it pops one entry, and its
owner, for each acknowledgement. -/
theorem handleRx_flow (data : Bytes) (c : Core) :
    SameBooks (c.flow.parseExtracted data).1 (c.handleRx data).flow ∧
      (c.handleRx data).owners = c.owners.drop (ackCount (c.flow.parseExtracted data).2) := by
  have hacc := parseExtracted_accounted data c.flow
  unfold Core.handleRx
  generalize c.flow.parseExtracted data = x at hacc ⊢
  obtain ⟨flow, es⟩ := x
  dsimp only at hacc ⊢
  have hlen := length_filter_toResponse hacc.kind
  generalize List.filter (fun r => !(r.rtype == .line)) (es.map Extracted.toResponse) = acks
    at hlen ⊢
  generalize List.filter (fun r => r.rtype == .line) (es.map Extracted.toResponse) ++ acks = rs
  obtain ⟨hflow, howners⟩ := foldl_handleResponse_books rs (c.popped flow acks.length)
  refine ⟨hflow.trans ⟨rfl, rfl, rfl⟩, ?_⟩
  rw [← hlen]
  exact howners

end Raydriver
