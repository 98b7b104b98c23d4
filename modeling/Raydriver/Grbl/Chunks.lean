import Raydriver.Grbl.Passes

/-!
# Streams cut into chunks

The transport delivers the device's byte stream in chunks of any size, each of
which is one call of `parse_incoming`.  What the calls report is computed here
from the token list of the stream.

## Main definitions

* `parseChunks` — successive calls of `parse_incoming`.
* `OksFirst` — no error stands before an `ok`.

## Main results

* `parseChunks_tokens` — **the specification of a chunked stream**.
* `passOrder_of_oksFirst` — where no error stands before an `ok`, a call goes in wire order.
-/

namespace Raydriver

open FlowInner

/-- Successive calls of `parse_incoming`. -/
def FlowInner.parseChunks : List Bytes → FlowInner → FlowInner × List Extracted
  | [], f => (f, [])
  | c :: cs, f =>
    let (g, es) := f.parseExtracted c
    let (h, es') := parseChunks cs g
    (h, es ++ es')

theorem parseChunks_cons (c : Bytes) (cs : List Bytes) (f : FlowInner) :
    f.parseChunks (c :: cs) = (((f.parseExtracted c).1.parseChunks cs).1,
      (f.parseExtracted c).2 ++ ((f.parseExtracted c).1.parseChunks cs).2) := by
  rw [parseChunks]

namespace Extracted

/-- The response is an acknowledgement. -/
def isAck : Extracted → Bool
  | .ack _ _ _ => true
  | .line _ => false

/-- An acknowledgement's kind and the pending command popped for it. -/
def attribution : Extracted → Option (GrblResponseType × Option PendingCommand)
  | .ack rtype _ popped => some (rtype, popped)
  | .line _ => none

/-- The kind and text of an acknowledgement. -/
def ackText : Extracted → Option (GrblResponseType × Text)
  | .ack rtype text _ => some (rtype, text)
  | .line _ => none

/-- The text of an informational line. -/
def lineText : Extracted → Option Text
  | .ack _ _ _ => none
  | .line text => some text

end Extracted

/-! ### Acknowledgements among the extracted items -/

theorem snd_acknowledge (r : GrblResponseType) (t : Text) (f : FlowInner) :
    (f.acknowledge r t).2 = .ack r t f.pending.head? := by
  obtain ⟨_, _, _, pending, _, _⟩ := f
  cases pending <;> rfl

theorem acknowledge_pending (r : GrblResponseType) (t : Text) (f : FlowInner) :
    (f.acknowledge r t).1.pending = f.pending.tail := by
  obtain ⟨_, _, _, pending, _, _⟩ := f
  cases pending <;> rfl

@[simp] theorem acknowledge_statusBuffer (r : GrblResponseType) (t : Text) (f : FlowInner) :
    (f.acknowledge r t).1.statusBuffer = f.statusBuffer := by
  obtain ⟨_, _, _, pending, _, _⟩ := f
  cases pending <;> rfl

/-- The `n`-th acknowledgement pops the `n`-th pending command. -/
theorem attribution_acknowledgeAll (as : List (GrblResponseType × Text)) : ∀ f : FlowInner,
    (f.acknowledgeAll as).2.filterMap Extracted.attribution
      = as.mapIdx fun n a => (a.1, f.pending[n]?) := by
  induction as with
  | nil => intro f; rfl
  | cons a as ih =>
    intro f
    simp only [acknowledgeAll, snd_acknowledge, List.filterMap_cons, Extracted.attribution, ih,
      acknowledge_pending, List.mapIdx_cons, List.getElem?_tail, List.head?_eq_getElem?]

theorem ackText_acknowledgeAll (as : List (GrblResponseType × Text)) : ∀ f : FlowInner,
    (f.acknowledgeAll as).2.filterMap Extracted.ackText = as := by
  induction as with
  | nil => intro f; rfl
  | cons a as ih =>
    intro f
    simp only [acknowledgeAll, snd_acknowledge, List.filterMap_cons, Extracted.ackText, ih]

theorem isAck_acknowledgeAll (as : List (GrblResponseType × Text)) : ∀ f : FlowInner,
    ∀ e ∈ (f.acknowledgeAll as).2, e.isAck = true := by
  induction as with
  | nil => intro f e he; cases he
  | cons a as ih =>
    intro f e he
    rcases List.mem_cons.mp he with rfl | he
    · rfl
    · exact ih _ e he

theorem lineText_eq_none {e : Extracted} (h : e.isAck = true) : e.lineText = none := by
  cases e with
  | ack r t p => rfl
  | line t => cases h

/-- Acknowledgements and lines reported by one call are told apart. -/
theorem isAck_split (as : List (GrblResponseType × Text)) (ls : List Text) (f : FlowInner) :
    ((f.acknowledgeAll as).2 ++ ls.map Extracted.line).filter Extracted.isAck
      = (f.acknowledgeAll as).2 := by
  rw [List.filter_append, List.filter_eq_self.mpr (isAck_acknowledgeAll as f),
    List.filter_eq_nil_iff.mpr, List.append_nil]
  intro e he
  obtain ⟨t, -, rfl⟩ := List.mem_map.mp he
  exact Bool.false_ne_true

theorem lineText_split (as : List (GrblResponseType × Text)) (ls : List Text) (f : FlowInner) :
    ((f.acknowledgeAll as).2 ++ ls.map Extracted.line).filterMap Extracted.lineText = ls := by
  rw [List.filterMap_append, List.filterMap_eq_nil_iff.mpr fun e he =>
    lineText_eq_none (isAck_acknowledgeAll as f e he), List.nil_append, List.filterMap_map]
  exact List.filterMap_some

theorem attribution_filter (es : List Extracted) :
    (es.filter Extracted.isAck).filterMap Extracted.attribution
      = es.filterMap Extracted.attribution := by
  rw [List.filterMap_filter]
  congr 1
  funext e
  cases e <;> rfl

theorem ackText_filter (es : List Extracted) :
    (es.filter Extracted.isAck).filterMap Extracted.ackText = es.filterMap Extracted.ackText := by
  rw [List.filterMap_filter]
  congr 1
  funext e
  cases e <;> rfl

/-! ### A chunk boundary in the token list -/

/-- The bytes of a token of a tidy stream end in the only LF they may hold. -/
theorem render_eq_concat {x : Bytes} {t : Token} {ts : List Token} (h : Tidy x (t :: ts)) :
    ∃ w b, t.render = w ++ [b] ∧ LF ∉ w := by
  cases t with
  | byte b => exact ⟨[], b, rfl, List.not_mem_nil⟩
  | ok nuls crs => exact ⟨okHead nuls crs, LF, okAck_eq nuls crs, LF_notMem_okHead nuls crs⟩
  | err text =>
    refine ⟨errorMarker ++ text, LF, rfl, ?_⟩
    rw [List.mem_append, not_or]
    exact ⟨by decide, h.1.1⟩

theorem Tidy.tail {x : Bytes} {t : Token} {ts : List Token} (h : Tidy x ([t] ++ ts)) :
    Tidy (carry x [t]) ts :=
  tidy_append ts h

/-- A cut through the bytes of a stream falls behind whole tokens and the start of
the next one. -/
theorem render_split {tail b : Bytes} (htail : LF ∉ tail) : ∀ (ts : List Token) (x a : Bytes),
    Tidy x ts → a ++ b = render ts ++ tail →
    ∃ us vs p, ts = us ++ vs ∧ a = render us ++ p ∧ p ++ b = render vs ++ tail ∧ LF ∉ p ∧
      (b = [] → vs = []) := by
  intro ts
  induction ts with
  | nil =>
    intro x a _ h
    refine ⟨[], [], a, rfl, rfl, h, ?_, fun _ => rfl⟩
    rw [render_nil, List.nil_append] at h
    rw [← h] at htail
    exact fun hmem => htail (List.mem_append_left b hmem)
  | cons t ts ih =>
    intro x a hc h
    obtain ⟨w, l, hw, hLF⟩ := render_eq_concat hc
    rw [render_cons, List.append_assoc, List.append_eq_append_iff] at h
    -- the token is whole in `a`, or `a` ends inside it
    have whole (a' : Bytes) (ha : a = t.render ++ a') (hb : a' ++ b = render ts ++ tail) :
        ∃ us vs p, t :: ts = us ++ vs ∧ a = render us ++ p ∧ p ++ b = render vs ++ tail ∧
          LF ∉ p ∧ (b = [] → vs = []) := by
      obtain ⟨us, vs, p, rfl, rfl, hp, hpLF, hnil⟩ := ih _ a' hc.tail hb
      exact ⟨t :: us, vs, p, rfl, by rw [ha, render_cons, List.append_assoc], hp, hpLF, hnil⟩
    rcases h with ⟨c, hc', hb⟩ | ⟨c, ha, hb⟩
    · rcases List.eq_nil_or_concat c with rfl | ⟨c, d, rfl⟩
      · rw [List.append_nil] at hc'
        exact whole [] (by rw [hc', List.append_nil]) (by simpa using hb)
      · refine ⟨[], t :: ts, a, rfl, rfl, ?_, ?_, ?_⟩
        · rw [hb, render_cons, List.append_assoc, hc', List.append_assoc]
        · rw [hw, List.concat_eq_append, ← List.append_assoc] at hc'
          obtain ⟨rfl, -⟩ := List.append_inj' hc' rfl
          exact fun hmem => hLF (List.mem_append_left c hmem)
        · intro hnil
          rw [hnil] at hb
          simp at hb
    · exact whole c ha hb.symm

/-! ### The unfinished line as tokens -/

theorem clean_bytes {us : List Token} : ∀ (x y : Bytes), LF ∉ x → Clean (y ++ x) us →
    Clean y (x.map .byte ++ us) := by
  intro x
  induction x with
  | nil => intro y _ h; simpa using h
  | cons b x ih =>
    intro y hx h
    rw [List.mem_cons, not_or] at hx
    obtain ⟨hb, hx⟩ := hx
    simp only [List.map_cons, List.cons_append, Clean, if_neg (Ne.symm hb)]
    exact ih (y ++ [b]) hx (by simpa using h)

theorem carry_bytes {x : Bytes} (y : Bytes) (hx : LF ∉ x) : carry y (x.map .byte) = y ++ x := by
  rw [carry, info_bytes, unfinished_of_notMem x y hx]

theorem lineEvents_bytes {x : Bytes} (y : Bytes) (hx : LF ∉ x) :
    lineEvents y (x.map .byte) = [] := by
  rw [lineEvents, info_bytes, finished_of_notMem x y hx]

theorem passOrder_bytes_append (x : Bytes) (us : List Token) :
    passOrder (x.map .byte ++ us) = passOrder us := by
  have h (q : Token → Bool) (hq : ∀ b, q (.byte b) = false) :
      (x.map Token.byte ++ us).filter q = us.filter q := by
    rw [List.filter_append, List.filter_eq_nil_iff.mpr, List.nil_append]
    intro t ht
    obtain ⟨b, -, rfl⟩ := List.mem_map.mp ht
    simp [hq]
  rw [passOrder, passOrder, h _ (Token.isOk_byte _), h _ (Token.isOk_byte _),
    h _ Token.isErr_byte]

/-! ### The specification of a chunked stream -/

/-- One call in the middle of a stream: `ts` is already parsed up to its unfinished
line, `us` completes in this chunk. -/
theorem parseExtracted_step {f : FlowInner} {c p q : Bytes} {ts us : List Token}
    (hc : Clean [] (ts ++ us)) (hf : f.statusBuffer = carry [] ts ++ p)
    (hpc : p ++ c = render us ++ q) (hq : LF ∉ q) :
    f.parseExtracted c
      = ((acked (passOrder us) (carry [] (ts ++ us) ++ q) f).1,
          (acked (passOrder us) (carry [] (ts ++ us) ++ q) f).2 ++
            (lineEvents (carry [] ts) us).map .line) := by
  have hLF := LF_notMem_carry ts [] List.not_mem_nil
  have hb : f.statusBuffer ++ c = render ((carry [] ts).map .byte ++ us) ++ q := by
    rw [hf, List.append_assoc, hpc, render_append, render_bytes, List.append_assoc]
  have h := parseExtracted_tokens hb (clean_bytes _ [] hLF (clean_append us hc)) hq
  rw [passOrder_bytes_append, carry_append, carry_bytes [] hLF, lineEvents_append,
    lineEvents_bytes [] hLF, carry_bytes [] hLF] at h
  rw [carry_append]
  exact h

/-- **The specification of a chunked stream**: whatever the cutting, the finished
lines are those of the stream, and the acknowledgements come in pass order within
each chunk. -/
theorem parseChunks_tokens {tail : Bytes} (htail : LF ∉ tail) :
    ∀ (cs : List Bytes) (ts us : List Token) (p : Bytes) (f : FlowInner), Clean [] (ts ++ us) →
      f.statusBuffer = carry [] ts ++ p → p ++ cs.flatten = render us ++ tail →
      (cs = [] → us = []) →
      ∃ vss : List (List Token), vss.flatten = us ∧ vss.length = cs.length ∧
        (f.parseChunks cs).1
          = (acked (vss.flatMap passOrder) (carry [] (ts ++ us) ++ tail) f).1 ∧
        (f.parseChunks cs).2.filter Extracted.isAck
          = (f.acknowledgeAll (vss.flatMap passOrder)).2 ∧
        (f.parseChunks cs).2.filterMap Extracted.lineText = lineEvents (carry [] ts) us := by
  intro cs
  induction cs with
  | nil =>
    intro ts us p f hc hf hp hus
    obtain rfl := hus rfl
    obtain rfl : p = tail := by simpa using hp
    refine ⟨[], rfl, rfl, ?_, rfl, rfl⟩
    rw [List.append_nil, ← hf]
    rfl
  | cons c cs ih =>
    intro ts us p f hc hf hp _
    rw [List.flatten_cons, ← List.append_assoc] at hp
    -- the chunk ends in the middle of a line: its complete part, and the rest
    obtain ⟨us, vs, q, rfl, hpc, hq, hqLF, hnil⟩ :=
      render_split htail us _ _ (clean_append us hc).tidy hp
    rw [← List.append_assoc] at hc
    have hstep := parseExtracted_step hc.left hf hpc hqLF
    obtain ⟨vss, rfl, hlen, hfst, hack, hline⟩ :=
      ih (ts ++ us) vs q (f.parseExtracted c).1 hc (by rw [hstep]; rfl) hq
        (fun h => hnil (by rw [h]; rfl))
    have happ := acked_append (passOrder us) (vss.flatMap passOrder)
      (carry [] (ts ++ us) ++ q) (carry [] (ts ++ us ++ vss.flatten) ++ tail) f
    -- within the chunk the passes put the acknowledgements in their own order
    have hacks : (f.acknowledgeAll (passOrder us ++ vss.flatMap passOrder)).2
        = (f.acknowledgeAll (passOrder us)).2
          ++ ((f.parseExtracted c).1.acknowledgeAll (vss.flatMap passOrder)).2 := by
      rw [hstep]
      exact congrArg Prod.snd happ
    have hsplit : (f.parseExtracted c).2.filter Extracted.isAck
        = (f.acknowledgeAll (passOrder us)).2 := by
      rw [hstep]
      exact isAck_split _ _ f
    have hlines : (f.parseExtracted c).2.filterMap Extracted.lineText
        = lineEvents (carry [] ts) us := by
      rw [hstep]
      exact lineText_split _ _ f
    refine ⟨us :: vss, rfl, by rw [List.length_cons, hlen, List.length_cons], ?_, ?_, ?_⟩
    · rw [parseChunks_cons, hfst, hstep, List.flatMap_cons, ← List.append_assoc, happ]
    · rw [parseChunks_cons, List.filter_append, hack, hsplit, List.flatMap_cons, hacks]
    · rw [parseChunks_cons, List.filterMap_append, hline, hlines, carry_append, lineEvents_append]

/-! ### Pass order and wire order -/

/-- No error stands before an `ok`. -/
def OksFirst (ts : List Token) : Prop :=
  ((acksOf ts).map Prod.fst).Pairwise fun a b => ¬ (a = .error ∧ b = .ok)

theorem acksOf_filter_isOk (P : ℕ → Bool) (ts : List Token) :
    acksOf (ts.filter (Token.isOk P))
      = List.replicate (ts.countP (Token.isOk P)) (.ok, "ok".toList) := by
  induction ts with
  | nil => rfl
  | cons t ts ih =>
    rw [List.filter_cons, List.countP_cons]
    cases t with
    | byte b => simpa using ih
    | ok nuls crs =>
      cases hP : P nuls with
      | false => simpa [hP] using ih
      | true => simp [hP, acksOf, ih, List.replicate_succ]
    | err text => simpa using ih

theorem countP_isOk (ts : List Token) :
    ts.countP (Token.isOk fun n => n == 0) + ts.countP (Token.isOk fun n => n != 0)
      = ts.countP (Token.isOk fun _ => true) := by
  induction ts with
  | nil => rfl
  | cons t ts ih =>
    simp only [List.countP_cons]
    cases t with
    | byte b => simpa using ih
    | ok nuls crs =>
      simp only [Token.isOk_ok]
      by_cases h : nuls = 0
      · simp [h]; omega
      · simp [h]; omega
    | err text => simpa using ih

/-- Pass order is the `ok`s of the buffer, then its errors. -/
theorem passOrder_eq (ts : List Token) :
    passOrder ts = List.replicate (ts.countP (Token.isOk fun _ => true)) (.ok, "ok".toList)
      ++ acksOf (ts.filter Token.isErr) := by
  rw [passOrder, acksOf_filter_isOk, acksOf_filter_isOk, ← List.replicate_add, countP_isOk]

theorem fst_acksOf_filter_isErr (ts : List Token) :
    ∀ k ∈ (acksOf (ts.filter Token.isErr)).map Prod.fst, k = .error := by
  induction ts with
  | nil => intro k h; cases h
  | cons t ts ih =>
    intro k h
    cases t with
    | byte b => exact ih k h
    | ok nuls crs => exact ih k h
    | err text =>
      rcases List.mem_cons.mp h with rfl | h
      · rfl
      · exact ih k h

/-- Where no error stands before an `ok`, one call goes in wire order. -/
theorem passOrder_of_oksFirst : ∀ {ts : List Token}, OksFirst ts → passOrder ts = acksOf ts := by
  intro ts
  induction ts with
  | nil => intro _; rfl
  | cons t ts ih =>
    intro h
    cases t with
    | byte b => exact ih h
    | ok nuls crs =>
      have h' : OksFirst ts := (List.pairwise_cons.mp h).2
      have ih := ih h'
      rw [passOrder_eq] at ih ⊢
      rw [List.countP_cons_of_pos rfl, List.replicate_succ, List.cons_append,
        List.filter_cons_of_neg (by simp), ih, acksOf]
    | err text =>
      obtain ⟨hok, h'⟩ := List.pairwise_cons.mp h
      have ih := ih (show OksFirst ts from h')
      -- no `ok` follows the error
      have hzero : ts.countP (Token.isOk fun _ => true) = 0 := by
        by_contra hne
        refine hok .ok ?_ ⟨rfl, rfl⟩
        rw [← ih, passOrder_eq, List.map_append, List.map_replicate]
        exact List.mem_append_left _ (List.mem_replicate.mpr ⟨hne, rfl⟩)
      rw [passOrder_eq, hzero] at ih
      rw [passOrder_eq, List.countP_cons_of_neg (by simp), hzero, List.filter_cons_of_pos rfl,
        acksOf, acksOf, ← ih]
      rfl

end Raydriver
